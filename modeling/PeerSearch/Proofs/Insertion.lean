import Mathlib
import PeerSearch.Table.Placement

/-!
# PeerSearch.Proofs.Insertion -- where an item fits into a list

Searching by halving ends at an item that passes the test right above one that fails it, whatever
list it is run on. Scanning with `takeWhile` ends the same way. An item fits into a sorted list where
it stands in order with its two neighbours.
-/

namespace PeerSearch

variable {α : Type} {p : α → Bool} {l : List α}

/-! ## Halving -/

theorem halve_le (p : α → Bool) (l : List α) (base size : Nat) :
    halve p l base size ≤ base + (size - 1) := by
  fun_induction halve p l base size with
  | case1 base size hsize middle ih =>
      refine ih.trans ?_
      split <;> omega
  | case2 base size hsize => exact Nat.le_add_right _ _

/-- Halving keeps an item that passes at the base, unless that is the start of the list, and one
that fails at the last place of the stretch or right after it. -/
theorem halve_boundary (p : α → Bool) (l : List α) (base size : Nat)
    (nonempty : 0 < size)
    (passes : base = 0 ∨ l[base]?.any p = true)
    (fails : l[base + size]?.any p = false ∨ l[base + size - 1]?.any p = false) :
    let last := halve p l base size
    (last = 0 ∨ l[last]?.any p = true) ∧ (l[last + 1]?.any p = false ∨ l[last]?.any p = false) := by
  -- Both bounds hold of the half that is kept, whichever it is.
  fun_induction halve p l base size with
  | case1 base size hsize middle ih =>
      have hmiddle : middle = base + size / 2 := rfl
      cases hp : l[middle]?.any p with
      | true =>
          rw [dif_pos hp] at ih
          rw [if_pos rfl]
          have stretch : middle + (size - size / 2) = base + size := by omega
          rw [stretch] at ih
          exact ih (by omega) (.inr hp) fails
      | false =>
          rw [dif_neg (by simp [hp])] at ih
          rw [if_neg Bool.false_ne_true]
          refine ih (by omega) passes ?_
          -- The stretch ends at the middle, or right after it when its size is odd.
          rcases Nat.even_or_odd' size with ⟨half, heven | hodd⟩
          · left
            have stretch : base + (size - size / 2) = middle := by omega
            rw [stretch, hp]
          · right
            have stretch : base + (size - size / 2) - 1 = middle := by omega
            rw [stretch, hp]
  | case2 base size hsize =>
      have one : size = 1 := by omega
      subst one
      exact ⟨passes, fails⟩

/-! ## Taking out and putting in -/

theorem insertIdx_eq_append {i : Nat} (h : i ≤ l.length) (x : α) :
    l.insertIdx i x = l.take i ++ x :: l.drop i := by
  induction l generalizing i with
  | nil =>
      have hi : i = 0 := Nat.le_zero.mp h
      subst hi
      rfl
  | cons a l ih =>
      cases i with
      | zero => rfl
      | succ i => exact congrArg (a :: ·) (ih (Nat.le_of_succ_le_succ h))

theorem perm_cons_eraseIdx {i : Nat} {a : α} (h : l[i]? = some a) : (a :: l.eraseIdx i).Perm l := by
  obtain ⟨hi, rfl⟩ := List.getElem?_eq_some_iff.mp h
  exact List.getElem_cons_eraseIdx_perm hi

/-- What is taken out of a list without repetitions is gone from it, and nothing else is. -/
theorem mem_eraseIdx_iff {i : Nat} {a : α} (nodup : l.Nodup) (h : l[i]? = some a) (b : α) :
    b ∈ l.eraseIdx i ↔ b ≠ a ∧ b ∈ l := by
  have perm := perm_cons_eraseIdx h
  have fresh := (List.nodup_cons.mp (perm.nodup_iff.mpr nodup)).1
  rw [← perm.mem_iff, List.mem_cons]
  constructor
  · intro hb
    exact ⟨fun heq => fresh (heq ▸ hb), .inr hb⟩
  · rintro ⟨hne, heq | hb⟩
    · exact absurd heq hne
    · exact hb

/-- Putting an item back where it was taken from restores the list. -/
theorem insertIdx_eraseIdx_self {i : Nat} {a : α} (h : l[i]? = some a) :
    (l.eraseIdx i).insertIdx i a = l := by
  induction l generalizing i with
  | nil => cases h
  | cons b l ih =>
      cases i with
      | zero =>
          cases h
          rfl
      | succ i => exact congrArg (b :: ·) (ih h)

/-- An item that a filter skips may be put in anywhere. -/
theorem filter_insertIdx {a : α} (skipped : p a = false) (i : Nat) :
    (l.insertIdx i a).filter p = l.filter p := by
  rcases Nat.lt_or_ge l.length i with beyond | within
  · rw [List.insertIdx_of_length_lt beyond]
  · rw [insertIdx_eq_append within, List.filter_append,
      List.filter_cons_of_neg (by rw [skipped]; exact Bool.false_ne_true), ← List.filter_append,
      List.take_append_drop]

/-- Nor is it missed when it is taken out. -/
theorem filter_eraseIdx {i : Nat} {a : α} (h : l[i]? = some a) (skipped : p a = false) :
    (l.eraseIdx i).filter p = l.filter p := by
  rw [← filter_insertIdx skipped i, insertIdx_eraseIdx_self h]

/-- A list without the item at a place, if there is one. -/
def removeAt? (l : List α) (i : Nat) : Option (List α) :=
  if i < l.length then some (l.eraseIdx i) else none

/-- A list with one more item at a place, if the list reaches that far. -/
def insertAt? (l : List α) (i : Nat) (a : α) : Option (List α) :=
  if i ≤ l.length then some (l.insertIdx i a) else none

theorem removeAt?_eq {i : Nat} (h : i < l.length) : removeAt? l i = some (l.eraseIdx i) :=
  if_pos h

theorem insertAt?_eq {i : Nat} (h : i ≤ l.length) (a : α) :
    insertAt? l i a = some (l.insertIdx i a) :=
  if_pos h

/-- A list with one more item is in order when it was in order without it and the item stands in
order with what is above and below it. -/
theorem pairwise_insertIdx_iff {R : α → α → Prop} {i : Nat} (h : i ≤ l.length) (x : α) :
    (l.insertIdx i x).Pairwise R ↔
      l.Pairwise R ∧ (∀ a ∈ l.take i, R a x) ∧ ∀ b ∈ l.drop i, R x b := by
  have parts := @List.pairwise_append α R (l.take i) (l.drop i)
  rw [List.take_append_drop] at parts
  rw [insertIdx_eq_append h, List.pairwise_append, List.pairwise_cons, parts]
  simp only [List.mem_cons, forall_eq_or_imp, forall_and]
  tauto

/-! ## Fitting in -/

/-- An item fits into a list at a place when it stands in order with its neighbours there. -/
structure Fits (R : α → α → Prop) (l : List α) (i : Nat) (x : α) : Prop where
  within : i ≤ l.length
  above : ∀ j a, j + 1 = i → l[j]? = some a → R a x
  below : ∀ b, l[i]? = some b → R x b

theorem Fits.pairwise {R : α → α → Prop} {i : Nat} {x : α} (h : Fits R l i x)
    (sorted : l.Pairwise R) (trans : ∀ a b c, R a b → R b c → R a c) :
    (l.insertIdx i x).Pairwise R := by
  have ordered := List.pairwise_iff_getElem.mp sorted
  -- What holds of the two neighbours holds of everything beyond them.
  have aboveAll : ∀ a ∈ l.take i, R a x := by
    intro a ha
    obtain ⟨j, hj, rfl⟩ := List.mem_take_iff_getElem.mp ha
    have within := h.within
    have hlast : i - 1 < l.length := by omega
    have hx : R l[i - 1] x := h.above (i - 1) _ (by omega) (List.getElem?_eq_getElem hlast)
    rcases Nat.lt_or_ge j (i - 1) with hlt | hge
    · exact trans _ _ _ (ordered j (i - 1) _ hlast hlt) hx
    · have hji : j = i - 1 := by omega
      subst hji
      exact hx
  have belowAll : ∀ b ∈ l.drop i, R x b := by
    intro b hb
    obtain ⟨j, hj, rfl⟩ := List.mem_drop_iff_getElem.mp hb
    have hfirst : i < l.length := by omega
    have hx : R x l[i] := h.below _ (List.getElem?_eq_getElem hfirst)
    cases j with
    | zero => exact hx
    | succ j => exact trans _ _ _ hx (ordered i (i + (j + 1)) hfirst _ (by omega))
  exact (pairwise_insertIdx_iff h.within x).mpr ⟨sorted, aboveAll, belowAll⟩

theorem partitionPoint_le (p : α → Bool) (l : List α) : partitionPoint p l ≤ l.length := by
  have hle := halve_le p l 0 l.length
  simp only [partitionPoint]
  split
  · next hp =>
    by_contra hlt
    have hnone : l[halve p l 0 l.length]? = none := List.getElem?_eq_none (by omega)
    simp [hnone] at hp
  · omega

/-- The partition point stands between an item that passes and one that fails. -/
theorem partitionPoint_fits {R : α → α → Prop} {x : α} (passing : ∀ a ∈ l, p a = true → R a x)
    (failing : ∀ b ∈ l, p b = false → R x b) : Fits R l (partitionPoint p l) x := by
  have above {i : Nat} {a : α} (hi : l[i]? = some a) (hp : l[i]?.any p = true) : R a x :=
    passing a (List.mem_of_getElem? hi) (by simpa [hi] using hp)
  have below {i : Nat} {b : α} (hi : l[i]? = some b) (hp : l[i]?.any p = false) : R x b :=
    failing b (List.mem_of_getElem? hi) (by simpa [hi] using hp)
  rcases Nat.eq_zero_or_pos l.length with hl | hl
  · obtain rfl := List.length_eq_zero_iff.mp hl
    have hzero : partitionPoint p ([] : List α) = 0 := Nat.le_zero.mp (partitionPoint_le p [])
    rw [hzero]
    exact ⟨Nat.le_refl 0, by simp, by simp⟩
  · have outside : l[0 + l.length]?.any p = false := by simp
    obtain ⟨hbefore, hafter⟩ := halve_boundary p l 0 l.length hl (.inl rfl) (.inl outside)
    refine ⟨partitionPoint_le p l, ?_, ?_⟩
    · intro j a hj ha
      unfold partitionPoint at hj
      dsimp only at hj
      split at hj
      · next hlast =>
        obtain rfl := Nat.succ.inj hj
        exact above ha hlast
      · next hlast =>
        have := hbefore.resolve_right hlast
        omega
    · intro b hb
      unfold partitionPoint at hb
      dsimp only at hb
      split at hb
      · next hlast => exact below hb (hafter.resolve_right (by simp [hlast]))
      · next hlast => exact below hb (by simpa using hlast)

/-! ## Scanning -/

/-- Scanning goes past items that pass, and stops before one that fails. -/
theorem takeWhile_boundary (p : α → Bool) {i : Nat} {a : α} (ha : l[i]? = some a) :
    (i < (l.takeWhile p).length → p a = true) ∧ (i = (l.takeWhile p).length → p a = false) := by
  induction l generalizing i with
  | nil => cases ha
  | cons b l ih =>
      cases hb : p b with
      | false =>
          rw [List.takeWhile_cons_of_neg (by simp [hb])]
          refine ⟨fun hi => absurd hi (Nat.not_lt_zero i), ?_⟩
          rintro rfl
          cases ha
          exact hb
      | true =>
          rw [List.takeWhile_cons_of_pos hb, List.length_cons]
          cases i with
          | zero =>
              cases ha
              exact ⟨fun _ => hb, fun hi => absurd hi (Nat.succ_ne_zero _).symm⟩
          | succ i =>
              obtain ⟨hpast, hstop⟩ := ih ha
              exact ⟨fun hi => hpast (Nat.lt_of_succ_lt_succ hi), fun hi => hstop (Nat.succ.inj hi)⟩

end PeerSearch
