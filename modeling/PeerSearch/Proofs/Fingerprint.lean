import PeerSearch.Fingerprint
import PeerSearch.Proofs.EditDistance

/-!
# PeerSearch.Proofs.Fingerprint -- comparing files either way round

An index compares what it holds with what arrives, and a user of the library may compare the other
way. Which of two files comes first does not matter: the shorter of two lengths bounds the edits,
edits can be taken back, and of the other conditions each asks for an equation.
-/

namespace PeerSearch

namespace Fingerprint

variable {a b : Fingerprint}

/-! ## Names -/

theorem allowedEdits_comm (a b : Fingerprint) : a.allowedEdits b = b.allowedEdits a := by
  rw [allowedEdits, allowedEdits, Nat.min_comm a.nameLength]

theorem similarNames_comm (a b : Fingerprint) : a.similarNames b = b.similarNames a := by
  rw [similarNames, similarNames, allowedEdits_comm, EditDistance.within_comm]

/-- One normal form is near enough, whatever number of edits is allowed. -/
theorem similarNames_of_eq (same : a.normalizedName = b.normalizedName) :
    a.similarNames b = true := by
  rw [similarNames, same]
  exact EditDistance.within_self _ _

theorem similarNames_self (a : Fingerprint) : a.similarNames a = true :=
  similarNames_of_eq rfl

/-! ## Verdicts -/

/-- Hashes decide when both files have one. -/
theorem hashes_cases (a b : Fingerprint) :
    (a.hash = none ∨ b.hash = none) ∨ ∃ g h, a.hash = some g ∧ b.hash = some h := by
  cases ha : a.hash with
  | none => exact .inl (.inl rfl)
  | some g =>
      cases hb : b.hash with
      | none => exact .inl (.inr rfl)
      | some h => exact .inr ⟨g, h, rfl, rfl⟩

theorem compareTo_of_hashes {g h : ContentHash} (ha : a.hash = some g) (hb : b.hash = some h) :
    a.compareTo b = if g = h ∧ a.extension = b.extension then .identical else .different := by
  rw [compareTo, ha, hb]

/-- One missing hash is enough for sizes and names to decide. -/
theorem compareTo_of_unhashed (unhashed : a.hash = none ∨ b.hash = none) :
    a.compareTo b =
      if a.size ≠ b.size then .different
      else if a.extension ≠ b.extension then .sameSizeDifferentName
      else if a.similarNames b then .identical
      else .sameSizeDifferentName := by
  rcases unhashed with ha | hb
  · rw [compareTo, ha]
  · rw [compareTo, hb]
    cases a.hash <;> rfl

theorem compareTo_comm (a b : Fingerprint) : a.compareTo b = b.compareTo a := by
  rcases hashes_cases a b with unhashed | ⟨g, h, ha, hb⟩
  · rw [compareTo_of_unhashed unhashed, compareTo_of_unhashed unhashed.symm, similarNames_comm]
    simp only [ne_eq, eq_comm (a := b.size), eq_comm (a := b.extension)]
  · rw [compareTo_of_hashes ha hb, compareTo_of_hashes hb ha]
    simp only [eq_comm (a := h), eq_comm (a := b.extension)]

theorem compareTo_self (a : Fingerprint) : a.compareTo a = .identical := by
  cases ha : a.hash with
  | none => simp [compareTo_of_unhashed (.inl ha), similarNames_self]
  | some g => rw [compareTo_of_hashes ha ha, if_pos ⟨rfl, rfl⟩]

/-- Files are identical when their extensions agree and so do their hashes or, where one is missing,
their sizes and, up to a few edits, their names. -/
theorem compareTo_eq_identical_iff :
    a.compareTo b = .identical ↔
      a.extension = b.extension ∧
        ((∃ hash, a.hash = some hash ∧ b.hash = some hash) ∨
          (a.hash = none ∨ b.hash = none) ∧ a.size = b.size ∧ a.similarNames b = true) := by
  rcases hashes_cases a b with unhashed | ⟨g, h, ha, hb⟩
  · have apart : ¬ ∃ hash, a.hash = some hash ∧ b.hash = some hash := by
      rintro ⟨hash, ha, hb⟩
      simp [ha, hb] at unhashed
    rw [compareTo_of_unhashed unhashed, or_iff_right apart, and_iff_right unhashed]
    by_cases size : a.size = b.size
    · by_cases extension : a.extension = b.extension
      · simp [size, extension]
      · simp [size, extension]
    · simp [size]
  · have same : (∃ hash, a.hash = some hash ∧ b.hash = some hash) ↔ g = h := by
      simp [ha, hb, eq_comm]
    rw [compareTo_of_hashes ha hb, same]
    simp [ha, hb, and_comm]

end Fingerprint

/-- Results compare to the same verdict either way round, a result is identical to itself, and
identical results agree in their extensions but for case, and in their hashes or their sizes. -/
theorem SearchResult.compareTo_either_way (a b : SearchResult) :
    a.compareTo b = b.compareTo a ∧ a.compareTo a = .identical ∧
      (a.compareTo b = .identical →
        Text.lower a.extension = Text.lower b.extension ∧
          ((∃ hash, a.hash = some hash ∧ b.hash = some hash) ∨ a.size = b.size)) := by
  refine ⟨Fingerprint.compareTo_comm _ _, Fingerprint.compareTo_self _, fun identical => ?_⟩
  obtain ⟨extension, hashes | ⟨-, size, -⟩⟩ := Fingerprint.compareTo_eq_identical_iff.mp identical
  · exact ⟨extension, .inl hashes⟩
  · exact ⟨extension, .inr size⟩

end PeerSearch
