import Mathlib
import PeerSearch.EditDistance

/-!
# PeerSearch.Proofs.EditDistance -- the bounded edit distance is exact

The distance of two texts is the least number of insertions, deletions and substitutions of single
characters that make one of them the other. The rows of the computation hold the distances of the
prefixes of one text to those of the other, whatever they are written over. Texts differ in length
by their distance at most, and no cell of a row is less than all cells of the one above. So giving up
early gives up on texts that are too far apart only.
-/

namespace PeerSearch.EditDistance

variable {a b c : List Char} {n k : Nat}

/-! ## Edits -/

/-- One insertion, deletion or substitution of a single character, at any place. -/
inductive Edit : List Char → List Char → Prop
  | insertion (front : List Char) (x : Char) (back : List Char) :
      Edit (front ++ back) (front ++ x :: back)
  | deletion (front : List Char) (x : Char) (back : List Char) :
      Edit (front ++ x :: back) (front ++ back)
  | substitution (front : List Char) (x y : Char) (back : List Char) :
      Edit (front ++ x :: back) (front ++ y :: back)

/-- One text becomes another by a number of edits, made one after the other. -/
inductive Becomes : Nat → List Char → List Char → Prop
  | same (a : List Char) : Becomes 0 a a
  | step {n : Nat} {a b c : List Char} : Edit a b → Becomes n b c → Becomes (n + 1) a c

theorem Edit.cons (x : Char) (h : Edit a b) : Edit (x :: a) (x :: b) := by
  cases h with
  | insertion front y back => exact .insertion (x :: front) y back
  | deletion front y back => exact .deletion (x :: front) y back
  | substitution front y z back => exact .substitution (x :: front) y z back

theorem Edit.reverse (h : Edit a b) : Edit a.reverse b.reverse := by
  cases h with
  | insertion front x back => simpa using Edit.insertion back.reverse x front.reverse
  | deletion front x back => simpa using Edit.deletion back.reverse x front.reverse
  | substitution front x y back => simpa using Edit.substitution back.reverse x y front.reverse

theorem Edit.symm (h : Edit a b) : Edit b a := by
  cases h with
  | insertion front x back => exact .deletion front x back
  | deletion front x back => exact .insertion front x back
  | substitution front x y back => exact .substitution front y x back

theorem Edit.length (h : Edit a b) : a.length ≤ b.length + 1 ∧ b.length ≤ a.length + 1 := by
  cases h <;> simp only [List.length_append, List.length_cons] <;> omega

namespace Becomes

theorem cons (x : Char) (h : Becomes n a b) : Becomes n (x :: a) (x :: b) := by
  induction h with
  | same a => exact .same (x :: a)
  | step edit _ ih => exact .step (edit.cons x) ih

theorem delete (x : Char) (h : Becomes n a b) : Becomes (n + 1) (x :: a) b :=
  .step (.deletion [] x a) h

theorem insert (x : Char) (h : Becomes n a b) : Becomes (n + 1) a (x :: b) :=
  .step (.insertion [] x a) (h.cons x)

theorem substitute (x y : Char) (h : Becomes n a b) : Becomes (n + 1) (x :: a) (y :: b) :=
  .step (.substitution [] x y a) (h.cons y)

theorem reverse (h : Becomes n a b) : Becomes n a.reverse b.reverse := by
  induction h with
  | same a => exact .same a.reverse
  | step edit _ ih => exact .step edit.reverse ih

/-- One more edit can be made last. -/
theorem concat (h : Becomes n a b) (edit : Edit b c) : Becomes (n + 1) a c := by
  induction h with
  | same a => exact .step edit (.same c)
  | step first _ ih => exact .step first (ih edit)

/-- Edits can be taken back in the opposite order. -/
theorem symm (h : Becomes n a b) : Becomes n b a := by
  induction h with
  | same a => exact .same a
  | step edit _ ih => exact ih.concat edit.symm

theorem length (h : Becomes n a b) : a.length ≤ b.length + n ∧ b.length ≤ a.length + n := by
  induction h with
  | same a => exact ⟨le_rfl, le_rfl⟩
  | step edit _ ih =>
      have one := edit.length
      omega

end Becomes

/-! ## The distance -/

/-- Distances to a text with `x` in front, given those to what stands behind it. -/
def extend (x : Char) (behind : List Char → Nat) : List Char → Nat
  | [] => behind [] + 1
  | y :: b =>
    min (min (behind (y :: b) + 1) (extend x behind b + 1))
      (if x = y then behind b else behind b + 1)

/-- The least number of edits by which one text becomes another. -/
def distance : List Char → List Char → Nat
  | [], b => b.length
  | x :: a, b => extend x (distance a) b

theorem distance_cons_nil (x : Char) (a : List Char) :
    distance (x :: a) [] = distance a [] + 1 := rfl

theorem distance_cons_cons (x y : Char) (a b : List Char) :
    distance (x :: a) (y :: b) =
      min (min (distance a (y :: b) + 1) (distance (x :: a) b + 1))
        (if x = y then distance a b else distance a b + 1) := rfl

/-- The distance is that of one of the three ways to go on. -/
theorem distance_cons_cons_cases (x y : Char) (a b : List Char) :
    distance (x :: a) (y :: b) = distance a (y :: b) + 1 ∨
      distance (x :: a) (y :: b) = distance (x :: a) b + 1 ∨
        distance (x :: a) (y :: b) = if x = y then distance a b else distance a b + 1 := by
  rw [distance_cons_cons]
  omega

theorem distance_nil_right (a : List Char) : distance a [] = a.length := by
  induction a with
  | nil => rfl
  | cons x a ih => rw [distance_cons_nil, ih, List.length_cons]

/-! ### No edit changes the distance by more than one -/

theorem distance_cons_left (x : Char) (a b : List Char) :
    distance (x :: a) b ≤ distance a b + 1 := by
  cases b with
  | nil => exact le_rfl
  | cons y b => exact (min_le_left _ _).trans (min_le_left _ _)

theorem distance_cons_right (a : List Char) (y : Char) (b : List Char) :
    distance a (y :: b) ≤ distance a b + 1 := by
  cases a with
  | nil => exact le_rfl
  | cons x a => exact (min_le_left _ _).trans (min_le_right _ _)

theorem distance_le_cons_left (x : Char) (a b : List Char) :
    distance a b ≤ distance (x :: a) b + 1 := by
  induction b with
  | nil =>
      rw [distance_cons_nil]
      omega
  | cons y b ih =>
      have longer := distance_cons_right a y b
      rw [distance_cons_cons]
      split <;> omega

theorem distance_substitute (x y : Char) (a b : List Char) :
    distance (x :: a) b ≤ distance (y :: a) b + 1 := by
  induction b with
  | nil => exact Nat.le_succ _
  | cons z b ih =>
      rw [distance_cons_cons, distance_cons_cons]
      split <;> split <;> omega

theorem distance_cons_of_le (x : Char) (near : ∀ c, distance a c ≤ distance b c + 1)
    (c : List Char) : distance (x :: a) c ≤ distance (x :: b) c + 1 := by
  induction c with
  | nil => exact Nat.succ_le_succ (near [])
  | cons y c ih =>
      have whole := near (y :: c)
      have rest := near c
      rw [distance_cons_cons, distance_cons_cons]
      split <;> omega

theorem distance_append_of_le (front : List Char)
    (near : ∀ c, distance a c ≤ distance b c + 1) (c : List Char) :
    distance (front ++ a) c ≤ distance (front ++ b) c + 1 := by
  induction front generalizing c with
  | nil => exact near c
  | cons x front ih => exact distance_cons_of_le x ih c

theorem Edit.distance_le (h : Edit a b) (c : List Char) : distance a c ≤ distance b c + 1 := by
  cases h with
  | insertion front x back => exact distance_append_of_le front (distance_le_cons_left x back) c
  | deletion front x back => exact distance_append_of_le front (distance_cons_left x back) c
  | substitution front x y back =>
      exact distance_append_of_le front (distance_substitute x y back) c

/-! ### The distance is the least number of edits -/

theorem distance_self (a : List Char) : distance a a = 0 := by
  induction a with
  | nil => rfl
  | cons x a ih =>
      rw [distance_cons_cons, if_pos rfl, ih]
      exact Nat.min_zero _

theorem Becomes.distance_le (h : Becomes n a b) : distance a b ≤ n := by
  induction h with
  | same a => exact (distance_self a).le
  | step edit _ ih => exact (edit.distance_le _).trans (Nat.succ_le_succ ih)

theorem becomes_distance (a b : List Char) : Becomes (distance a b) a b := by
  -- By induction on the first text, and then on the second, as the distance is computed.
  induction a generalizing b with
  | nil =>
      induction b with
      | nil => exact .same []
      | cons y b ih => exact ih.insert y
  | cons x a shorter =>
      induction b with
      | nil => exact (shorter []).delete x
      | cons y b ih =>
          rcases distance_cons_cons_cases x y a b with least | least | least
          · exact least ▸ (shorter (y :: b)).delete x
          · exact least ▸ ih.insert y
          · rw [least]
            split
            · next same => exact same ▸ (shorter b).cons x
            · exact (shorter b).substitute x y

theorem distance_isLeast (a b : List Char) : IsLeast {n | Becomes n a b} (distance a b) :=
  ⟨becomes_distance a b, fun _ h => h.distance_le⟩

theorem distance_reverse (a b : List Char) : distance a.reverse b.reverse = distance a b := by
  refine le_antisymm (becomes_distance a b).reverse.distance_le ?_
  simpa using (becomes_distance a.reverse b.reverse).reverse.distance_le

theorem distance_comm (a b : List Char) : distance a b = distance b a :=
  le_antisymm (becomes_distance b a).symm.distance_le (becomes_distance a b).symm.distance_le

/-! ## Rows -/

/-- Distances of `a` to the prefixes of a text that have at least the characters of `done`, where
`rest` are the others. The texts are read backwards, as prefixes grow at their end. -/
def rowFrom (a done : List Char) : List Char → List Nat
  | [] => [distance a done]
  | y :: rest => distance a done :: rowFrom a (y :: done) rest

theorem rowFrom_eq_cons (a done rest : List Char) :
    rowFrom a done rest = distance a done :: (rowFrom a done rest).tail := by
  cases rest <;> rfl

theorem length_rowFrom (a done rest : List Char) :
    (rowFrom a done rest).length = rest.length + 1 := by
  induction rest generalizing done with
  | nil => rfl
  | cons y rest ih => exact congrArg (· + 1) (ih (y :: done))

/-- The row to begin with. -/
theorem rowFrom_nil (done rest : List Char) :
    rowFrom [] done rest = List.range' done.length (rest.length + 1) := by
  induction rest generalizing done with
  | nil => rfl
  | cons y rest ih =>
      rw [rowFrom, ih]
      rfl

/-- The last cell is the distance to the whole text. -/
theorem getElem?_rowFrom (a done rest : List Char) :
    (rowFrom a done rest)[rest.length]? = some (distance a (rest.reverse ++ done)) := by
  induction rest generalizing done with
  | nil => rfl
  | cons y rest ih =>
      rw [List.reverse_cons, List.append_assoc, List.singleton_append, ← ih]
      rfl

/-! ### Rows that are written -/

/-- The cells of a row are the distances that the recursion asks for, when all old ones are written
over. -/
theorem writeCells_rowFrom (x : Char) (a done rest : List Char) {old : List Nat}
    (fits : old.length = rest.length) :
    writeCells x (distance (x :: a) done) rest (rowFrom a done rest) old =
      (rowFrom (x :: a) done rest).tail := by
  induction rest generalizing done old with
  | nil =>
      obtain rfl := List.length_eq_zero_iff.mp fits
      rfl
  | cons y rest ih =>
      obtain ⟨stale, old, rfl⟩ := List.exists_cons_of_length_eq_add_one fits
      have cell : min (min (distance a (y :: done) + 1) (distance (x :: a) done + 1))
          (if x == y then distance a done else distance a done + 1) =
          distance (x :: a) (y :: done) := by
        simp only [beq_iff_eq, distance_cons_cons]
      rw [rowFrom, rowFrom_eq_cons, writeCells]
      simp only [cell]
      rw [← rowFrom_eq_cons, ih (y :: done) (Nat.succ.inj fits), ← rowFrom_eq_cons]
      rfl

theorem writeRow_rowFrom (x : Char) (a b : List Char) {old : List Nat}
    (fits : old.length = b.length + 1) :
    writeRow x a.length b (rowFrom a [] b) old = rowFrom (x :: a) [] b := by
  have first : a.length + 1 = distance (x :: a) [] := (distance_nil_right (x :: a)).symm
  have cells : old.tail.length = b.length := by rw [List.length_tail, fits, Nat.add_sub_cancel]
  rw [writeRow, first, writeCells_rowFrom x a [] b cells, ← rowFrom_eq_cons]

/-! ### Rows that exceed the bound -/

theorem keepsBound_eq_false_iff {row : List Nat} :
    keepsBound k row = false ↔ ∀ cell ∈ row, k < cell := by
  simp [keepsBound]

/-- Below a row that exceeds the bound, all cells from one that exceeds it do so too. -/
theorem rowFrom_exceeds {done rest : List Char} (x : Char)
    (above : ∀ cell ∈ rowFrom a done rest, k < cell) (left : k < distance (x :: a) done) :
    ∀ cell ∈ rowFrom (x :: a) done rest, k < cell := by
  induction rest generalizing done with
  | nil => exact List.forall_mem_singleton.mpr left
  | cons y rest ih =>
      obtain ⟨diagonal, later⟩ := List.forall_mem_cons.mp above
      have up : k < distance a (y :: done) := later _ (rowFrom_eq_cons .. ▸ List.mem_cons_self)
      have cell : k < distance (x :: a) (y :: done) := by
        rw [distance_cons_cons]
        split <;> omega
      exact List.forall_mem_cons.mpr ⟨left, ih later cell⟩

/-- When a row exceeds the bound, so does every later one. -/
theorem rowFrom_append_exceeds (more : List Char) (exceeds : ∀ cell ∈ rowFrom a [] b, k < cell) :
    ∀ cell ∈ rowFrom (more ++ a) [] b, k < cell := by
  induction more with
  | nil => exact exceeds
  | cons x more ih =>
      have first : k < distance (more ++ a) [] := ih _ (rowFrom_eq_cons .. ▸ List.mem_cons_self)
      exact rowFrom_exceeds x ih (first.trans (Nat.lt_succ_self _))

/-! ## The computation -/

/-- From the row of what has been read of the first text, scanning the rest of it compares the
distance of the whole texts. -/
theorem scanRows_iff (a rest b : List Char) {old : List Nat} (fits : old.length = b.length + 1) :
    scanRows k b a.length (rowFrom a [] b) old rest = true ↔
      distance (rest.reverse ++ a) b.reverse ≤ k := by
  have last (a : List Char) : (rowFrom a [] b)[b.length]? = some (distance a b.reverse) := by
    rw [getElem?_rowFrom, List.append_nil]
  -- By induction on the rest, where the row that has been read is the next one to write over.
  induction rest generalizing a old with
  | nil =>
      rw [scanRows, decide_eq_true_iff, List.getD_eq_getElem?_getD, last]
      rfl
  | cons x rest ih =>
      have read := ih (x :: a) (length_rowFrom a [] b)
      rw [List.reverse_cons, List.append_assoc, List.singleton_append, scanRows,
        writeRow_rowFrom x a b fits]
      cases keeps : keepsBound k (rowFrom (x :: a) [] b) with
      | true => exact read
      | false =>
          have exceeds := rowFrom_append_exceeds rest.reverse (keepsBound_eq_false_iff.mp keeps)
          have far := exceeds _ (List.mem_of_getElem? (last _))
          exact iff_of_false Bool.false_ne_true (not_le.mpr far)

theorem within_self (k : Nat) (a : List Char) : within k a a = true := by
  rw [within, if_pos (beq_self_eq_true a)]

/-- Though the rows of one text are read over the other, it does not matter which is which. -/
theorem within_comm (k : Nat) (a b : List Char) : within k a b = within k b a := by
  have scanned (a b : List Char) :
      scanRows k b 0 (List.range (b.length + 1)) (List.replicate (b.length + 1) 0) a =
        decide (distance a b ≤ k) := by
    have first : rowFrom [] [] b = List.range (b.length + 1) := by
      rw [rowFrom_nil, List.length_nil, ← List.range_eq_range']
    have read := scanRows_iff (k := k) [] a b (List.length_replicate (a := 0))
    rw [List.append_nil, distance_reverse, first] at read
    exact Bool.eq_iff_iff.mpr (read.trans decide_eq_true_iff.symm)
  rw [within, within, scanned, scanned, distance_comm a b, Bool.beq_comm, Bool.or_comm]

/-- The distance is the least number of single characters to insert, delete or substitute, and
whether it keeps a bound is what the computation tells, whatever the texts and the bound. -/
theorem within_iff_distance_le (k : Nat) (a b : List Char) :
    IsLeast {n | Becomes n a b} (distance a b) ∧ (within k a b = true ↔ distance a b ≤ k) := by
  refine ⟨distance_isLeast a b, ?_⟩
  have lengths := (becomes_distance a b).length
  unfold within
  split
  · next same =>
    obtain rfl : a = b := beq_iff_eq.mp same
    exact iff_of_true rfl ((distance_self a).trans_le (Nat.zero_le k))
  · split
    · next apart =>
      simp only [Bool.or_eq_true, decide_eq_true_iff] at apart
      refine iff_of_false Bool.false_ne_true ?_
      omega
    · have first : List.range (b.length + 1) = rowFrom [] [] b := by
        rw [rowFrom_nil, List.range_eq_range']
        rfl
      have scanned := scanRows_iff (k := k) [] a b (List.length_replicate (a := 0))
      rw [List.append_nil, distance_reverse] at scanned
      rw [first]
      exact scanned

/-- One character too many at the front and one too few at the end. -/
example : distance "kitten".toList "itten!".toList = 2 := by decide

end PeerSearch.EditDistance
