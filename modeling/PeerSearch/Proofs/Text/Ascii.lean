import Mathlib
import PeerSearch.Text.Ascii
import PeerSearch.Text.Blank

/-!
# PeerSearch.Proofs.Text.Ascii -- ASCII case by code points

Folding the case of a character is said through its code point, so that facts on characters are
linear arithmetic. Both foldings forget the same, and neither touches what makes a character white
space.
-/

namespace PeerSearch.Text

variable {c : Char}

/-! ## The foldings by code points -/

theorem toNat_asciiLowerChar (c : Char) :
    (asciiLowerChar c).toNat =
      if 0x41 ≤ c.toNat ∧ c.toNat ≤ 0x5A then c.toNat + 0x20 else c.toNat := by
  have range : ('A' ≤ c && c ≤ 'Z') = true ↔ 0x41 ≤ c.toNat ∧ c.toNat ≤ 0x5A := by
    rw [Bool.and_eq_true, decide_eq_true_eq, decide_eq_true_eq]
    rfl
  by_cases upper : 0x41 ≤ c.toNat ∧ c.toNat ≤ 0x5A
  · have valid : (c.toNat + 0x20).isValidChar := .inl (by omega)
    rw [asciiLowerChar, if_pos (range.mpr upper), if_pos upper, Char.toNat_ofNat, if_pos valid]
  · rw [asciiLowerChar, if_neg (mt range.mp upper), if_neg upper]

theorem toNat_asciiUpperChar (c : Char) :
    (asciiUpperChar c).toNat =
      if 0x61 ≤ c.toNat ∧ c.toNat ≤ 0x7A then c.toNat - 0x20 else c.toNat := by
  have range : ('a' ≤ c && c ≤ 'z') = true ↔ 0x61 ≤ c.toNat ∧ c.toNat ≤ 0x7A := by
    rw [Bool.and_eq_true, decide_eq_true_eq, decide_eq_true_eq]
    rfl
  by_cases lower : 0x61 ≤ c.toNat ∧ c.toNat ≤ 0x7A
  · have valid : (c.toNat - 0x20).isValidChar := .inl (by omega)
    rw [asciiUpperChar, if_pos (range.mpr lower), if_pos lower, Char.toNat_ofNat, if_pos valid]
  · rw [asciiUpperChar, if_neg (mt range.mp lower), if_neg lower]

/-! ## What the foldings forget -/

@[simp] theorem asciiLowerChar_asciiLowerChar (c : Char) :
    asciiLowerChar (asciiLowerChar c) = asciiLowerChar c := by
  rw [← Char.toNat_inj]
  simp only [toNat_asciiLowerChar]
  split_ifs <;> omega

@[simp] theorem asciiLowerChar_asciiUpperChar (c : Char) :
    asciiLowerChar (asciiUpperChar c) = asciiLowerChar c := by
  rw [← Char.toNat_inj]
  simp only [toNat_asciiLowerChar, toNat_asciiUpperChar]
  split_ifs <;> omega

@[simp] theorem asciiUpperChar_asciiLowerChar (c : Char) :
    asciiUpperChar (asciiLowerChar c) = asciiUpperChar c := by
  rw [← Char.toNat_inj]
  simp only [toNat_asciiLowerChar, toNat_asciiUpperChar]
  split_ifs <;> omega

/-- Two texts agree in upper case exactly if they agree in lower case. -/
theorem map_asciiUpper_eq_iff {cs ds : List Char} :
    cs.map asciiUpperChar = ds.map asciiUpperChar ↔
      cs.map asciiLowerChar = ds.map asciiLowerChar := by
  constructor <;> intro same
  · simpa [Function.comp_def] using congrArg (List.map asciiLowerChar) same
  · simpa [Function.comp_def] using congrArg (List.map asciiUpperChar) same

/-! ## White space -/

@[simp] theorem isBlank_asciiLowerChar (c : Char) : isBlank (asciiLowerChar c) = isBlank c := by
  rw [Bool.eq_iff_iff]
  simp only [isBlank, Bool.or_eq_true, Bool.and_eq_true, decide_eq_true_eq, beq_iff_eq,
    toNat_asciiLowerChar]
  split_ifs <;> omega

/-- Printable ASCII characters other than the space are no white space. -/
theorem isBlank_of_printable (h : 0x21 ≤ c.toNat ∧ c.toNat ≤ 0x7E) : isBlank c = false := by
  rw [Bool.eq_false_iff]
  simp only [isBlank, ne_eq, Bool.or_eq_true, Bool.and_eq_true, decide_eq_true_eq, beq_iff_eq]
  omega

end PeerSearch.Text
