import Mathlib
import PeerSearch.SortedMap

/-!
# PeerSearch.Proofs.SortedMap -- what is found in a map

Maps are compared by what is found under each key: that settles the map. A pair is an entry exactly
when its value is found under its key, no key has two entries, and each operation changes what is
found under one key only. Of a set it is enough to know the members.
-/

namespace PeerSearch.SortedMap

variable {κ α : Type} [Ord κ] [Std.TransOrd κ] [Std.LawfulEqOrd κ]

/-! ## Entries -/

omit [Std.TransOrd κ] in
theorem compare_eq_iff {j k : κ} : compare j k = .eq ↔ j = k :=
  Std.LawfulEqCmp.compare_eq_iff_eq

omit [Std.TransOrd κ] in
theorem compare_beq_iff {j k : κ} : (compare j k == .eq) = true ↔ j = k := by
  rw [beq_iff_eq, compare_eq_iff]

omit [Std.TransOrd κ] in
theorem keys_nodup (m : SortedMap κ α) : m.keys.Nodup := by
  refine List.pairwise_map.mpr (m.increasing.imp ?_)
  intro a b hlt heq
  rw [compare_eq_iff.mpr heq] at hlt
  exact absurd hlt (by decide)

omit [Std.TransOrd κ] [Std.LawfulEqOrd κ] in
theorem keys_increasing (m : SortedMap κ α) : m.keys.Pairwise fun a b => compare a b = .lt :=
  List.pairwise_map.mpr m.increasing

omit [Std.LawfulEqOrd κ] in
/-- Lists with strictly increasing keys are known by their members. -/
theorem eq_of_increasing (key : α → κ) {l l' : List α}
    (hl : l.Pairwise fun a b => compare (key a) (key b) = .lt)
    (hl' : l'.Pairwise fun a b => compare (key a) (key b) = .lt) (same : ∀ a, a ∈ l ↔ a ∈ l') :
    l = l' := by
  have asymm {a b : α} (hab : compare (key a) (key b) = .lt) : ¬ compare (key b) (key a) = .lt :=
    Std.OrientedCmp.not_lt_of_lt hab
  have : Std.Antisymm fun a b : α => compare (key a) (key b) = .lt :=
    ⟨fun _ _ hab hba => absurd hba (asymm hab)⟩
  have : Std.Irrefl fun a b : α => compare (key a) (key b) = .lt := ⟨fun _ h => asymm h h⟩
  exact hl.eq_of_mem_iff hl' same

omit [Std.TransOrd κ] in
theorem mem_entries_iff (m : SortedMap κ α) {k : κ} {a : α} :
    (k, a) ∈ m.entries ↔ m.find? k = some a := by
  have key_of_found {e : κ × α} (he : m.entries.find? (fun e => compare e.1 k == .eq) = some e) :
      e.1 = k := by
    simpa only [compare_beq_iff] using List.find?_some he
  constructor
  · intro h
    have hsome : (m.entries.find? fun e => compare e.1 k == .eq).isSome := by
      rw [List.find?_isSome]
      exact ⟨(k, a), h, compare_beq_iff.mpr rfl⟩
    obtain ⟨e, he⟩ := Option.isSome_iff_exists.mp hsome
    have same : e = (k, a) :=
      List.inj_on_of_nodup_map m.keys_nodup (List.mem_of_find?_eq_some he) h (key_of_found he)
    rw [find?, he, same]
    rfl
  · intro h
    obtain ⟨e, he, rfl⟩ := Option.map_eq_some_iff.mp h
    exact key_of_found he ▸ List.mem_of_find?_eq_some he

omit [Std.TransOrd κ] in
theorem mem_keys_iff (m : SortedMap κ α) {k : κ} : k ∈ m.keys ↔ ∃ a, m.find? k = some a := by
  simp only [keys, List.mem_map, ← mem_entries_iff]
  constructor
  · rintro ⟨⟨j, a⟩, h, rfl⟩
    exact ⟨a, h⟩
  · rintro ⟨a, h⟩
    exact ⟨(k, a), h, rfl⟩

omit [Std.TransOrd κ] in
theorem mem_values_iff (m : SortedMap κ α) {a : α} : a ∈ m.values ↔ ∃ k, m.find? k = some a := by
  simp only [values, List.mem_map, ← mem_entries_iff]
  constructor
  · rintro ⟨⟨k, b⟩, h, rfl⟩
    exact ⟨k, h⟩
  · rintro ⟨k, h⟩
    exact ⟨(k, a), h, rfl⟩

omit [Std.TransOrd κ] [Std.LawfulEqOrd κ] in
theorem contains_eq_isSome (m : SortedMap κ α) (k : κ) : m.contains k = (m.find? k).isSome := by
  rw [contains, find?, Option.isSome_map, List.isSome_find?]

omit [Std.TransOrd κ] [Std.LawfulEqOrd κ] in
theorem isEmpty_iff {m : SortedMap κ α} : m.isEmpty = true ↔ m = ∅ := by
  constructor
  · intro h
    exact eq_of_entries (List.isEmpty_iff.mp h)
  · rintro rfl
    rfl

/-- A map is known by what is found in it. -/
theorem ext_find? {m n : SortedMap κ α} (h : ∀ k, m.find? k = n.find? k) : m = n := by
  have distinct (l : SortedMap κ α) : l.entries.Nodup := .of_map Prod.fst l.keys_nodup
  have same : m.entries.Perm n.entries := by
    refine (List.perm_ext_iff_of_nodup (distinct m) (distinct n)).mpr ?_
    rintro ⟨k, a⟩
    rw [mem_entries_iff, mem_entries_iff, h]
  -- No two entries can stand before one another.
  refine eq_of_entries (same.eq_of_pairwise ?_ m.increasing n.increasing)
  intro a b _ _ hab hba
  exact absurd hba (Std.OrientedCmp.not_lt_of_lt hab)

/-! ## Operations -/

omit [Std.TransOrd κ] in
theorem insertEntry_perm {k : κ} (a : α) {l : List (κ × α)} (unused : ∀ e ∈ l, e.1 ≠ k) :
    (insertEntry k a l).Perm ((k, a) :: l) := by
  induction l with
  | nil => exact .refl _
  | cons e rest ih =>
      unfold insertEntry
      split
      · exact .refl _
      · next same => exact absurd (compare_eq_iff.mp same).symm (unused e List.mem_cons_self)
      · have later := ih fun x hx => unused x (List.mem_cons_of_mem e hx)
        exact (later.cons e).trans (.swap (k, a) e rest)

theorem size_insert {m : SortedMap κ α} {k : κ} (unused : m.find? k = none) (a : α) :
    (m.insert k a).size = m.size + 1 := by
  refine (insertEntry_perm a fun e he same => ?_).length_eq
  have found := (m.mem_entries_iff (k := e.1) (a := e.2)).mp he
  rw [same, unused] at found
  cases found

omit [Std.TransOrd κ] [Std.LawfulEqOrd κ] in
@[simp] theorem find?_empty (k : κ) : (∅ : SortedMap κ α).find? k = none := rfl

variable [DecidableEq κ]

omit [Std.TransOrd κ] in
theorem find?_insertEntry (k j : κ) (a : α) (l : List (κ × α)) :
    ((insertEntry k a l).find? fun e => compare e.1 j == .eq) =
      if k = j then some (k, a) else l.find? fun e => compare e.1 j == .eq := by
  induction l with
  | nil => by_cases h : k = j <;> simp [insertEntry, h]
  | cons e rest ih =>
      unfold insertEntry
      split
      · by_cases h : k = j <;> simp [h]
      · next heq =>
        obtain rfl : k = e.1 := Std.LawfulEqCmp.eq_of_compare heq
        by_cases h : e.1 = j <;> simp [h]
      · next hgt =>
        have hne : k ≠ e.1 := by
          rintro rfl
          rw [compare_eq_iff.mpr rfl] at hgt
          exact absurd hgt (by decide)
        by_cases he : e.1 = j
        · simp [he, he ▸ hne]
        · simp [he, ih]

theorem find?_insert (m : SortedMap κ α) (k j : κ) (a : α) :
    (m.insert k a).find? j = if k = j then some a else m.find? j := by
  unfold find? insert
  rw [find?_insertEntry]
  split <;> rfl

theorem find?_insertIfNew (m : SortedMap κ α) (k j : κ) (a : α) :
    (m.insertIfNew k a).find? j = if k = j then (m.find? j).or (some a) else m.find? j := by
  unfold insertIfNew
  rw [contains_eq_isSome]
  cases h : m.find? k with
  | none =>
      rw [if_neg (by simp), find?_insert]
      split
      · next heq => rw [← heq, h, Option.none_or]
      · rfl
  | some b =>
      rw [if_pos Option.isSome_some]
      split
      · next heq => rw [← heq, h, Option.some_or]
      · rfl

omit [Std.TransOrd κ] in
theorem find?_erase (m : SortedMap κ α) (k j : κ) :
    (m.erase k).find? j = if j = k then none else m.find? j := by
  unfold find? erase
  rw [List.find?_filter]
  by_cases h : j = k
  · simp [h]
  · rw [if_neg h]
    congr 2
    funext e
    by_cases he : e.1 = j <;> simp [he, h]

/-- Nothing is erased where nothing is recorded. -/
theorem erase_of_unused {m : SortedMap κ α} {k : κ} (unused : m.find? k = none) :
    m.erase k = m := by
  refine ext_find? fun j => ?_
  rw [find?_erase]
  split
  · next same => rw [same, unused]
  · rfl

/-- Erasing undoes recording what was not recorded before. -/
theorem erase_insert {m : SortedMap κ α} {k : κ} (unused : m.find? k = none) (a : α) :
    (m.insert k a).erase k = m := by
  refine ext_find? fun j => ?_
  rw [find?_erase, find?_insert]
  split
  · next same => rw [same, unused]
  · next other => rw [if_neg (Ne.symm other)]

end PeerSearch.SortedMap

/-! ## Sets -/

namespace PeerSearch.SortedSet

variable {κ : Type} [Ord κ] [Std.TransOrd κ] [Std.LawfulEqOrd κ]

omit [Std.TransOrd κ] in
theorem mem_toList_iff (s : SortedSet κ) {k : κ} : k ∈ s.toList ↔ s.find? k = some () := by
  rw [toList, SortedMap.mem_keys_iff]
  exact ⟨fun ⟨_, h⟩ => h, fun h => ⟨(), h⟩⟩

omit [Std.TransOrd κ] in
theorem contains_toList [DecidableEq κ] (s : SortedSet κ) (k : κ) :
    s.toList.contains k = SortedMap.contains s k := by
  rw [Bool.eq_iff_iff, List.contains_iff_mem, mem_toList_iff, SortedMap.contains_eq_isSome]
  cases s.find? k <;> simp

theorem eq_of_mem_iff {s t : SortedSet κ} (h : ∀ k, k ∈ s.toList ↔ k ∈ t.toList) : s = t := by
  refine SortedMap.ext_find? fun k => ?_
  have hk := h k
  rw [mem_toList_iff, mem_toList_iff] at hk
  exact Option.ext fun _ => hk

variable [DecidableEq κ]

@[simp] theorem mem_add {s : SortedSet κ} {j k : κ} :
    j ∈ (s.add k).toList ↔ j = k ∨ j ∈ s.toList := by
  rw [mem_toList_iff, mem_toList_iff, add, SortedMap.find?_insert]
  by_cases h : k = j
  · simp [h]
  · simp [h, Ne.symm h]

omit [Std.TransOrd κ] in
@[simp] theorem mem_erase {s : SortedSet κ} {j k : κ} :
    j ∈ toList (s.erase k) ↔ j ≠ k ∧ j ∈ s.toList := by
  rw [mem_toList_iff, mem_toList_iff, SortedMap.find?_erase]
  by_cases h : j = k
  · simp [h]
  · simp [h]

omit [Std.TransOrd κ] [Std.LawfulEqOrd κ] [DecidableEq κ] in
@[simp] theorem mem_keep {s : SortedSet κ} {p : κ → Bool} {k : κ} :
    k ∈ (s.keep p).toList ↔ k ∈ s.toList ∧ p k = true := by
  simp only [toList, SortedMap.keys, keep, List.mem_map, List.mem_filter]
  constructor
  · rintro ⟨e, ⟨he, kept⟩, rfl⟩
    exact ⟨⟨e, he, rfl⟩, kept⟩
  · rintro ⟨⟨e, he, rfl⟩, kept⟩
    exact ⟨e, ⟨he, kept⟩, rfl⟩

end PeerSearch.SortedSet
