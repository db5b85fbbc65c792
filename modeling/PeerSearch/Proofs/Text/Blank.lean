import Mathlib
import PeerSearch.Text.Blank

/-!
# PeerSearch.Proofs.Text.Blank -- what trimming takes off

A text without white space at its ends is left as it is, which is what makes a trimmed text safe to
trim again wherever it is read. From any other, trimming takes white space in front and behind, and
nothing else.
-/

namespace PeerSearch.Text

theorem trimEnd_isPrefix (cs : List Char) : trimEnd cs <+: cs :=
  List.rdropWhile_prefix isBlank cs

theorem trimEnd_trimEnd (cs : List Char) : trimEnd (trimEnd cs) = trimEnd cs :=
  List.rdropWhile_idempotent isBlank cs

/-- Taking white space off the end leaves the start of the text as it is. -/
theorem trimStart_trimEnd_trimStart (cs : List Char) :
    trimStart (trimEnd (trimStart cs)) = trimEnd (trimStart cs) := by
  unfold trimStart
  cases hs : trimEnd (cs.dropWhile isBlank) with
  | nil => rfl
  | cons c rest =>
      obtain ⟨tail, start⟩ := hs ▸ trimEnd_isPrefix (cs.dropWhile isBlank)
      have first : isBlank c = false := by
        have head := List.head?_dropWhile_not isBlank cs
        rw [← start] at head
        simpa using head
      rw [List.dropWhile_cons_of_neg (by simp [first])]

/-- A trimmed text stays as it is. -/
@[simp] theorem trim_trim (s : String) : trim (trim s) = trim s := by
  rw [trim, trim, String.toList_ofList, trimChars, trimChars, trimStart_trimEnd_trimStart,
    trimEnd_trimEnd]

/-! ## Texts that trimming leaves as they are -/

/-- A text without white space at either end. -/
def IsTrimmed (cs : List Char) : Prop :=
  (∀ c ∈ cs.head?, isBlank c = false) ∧ ∀ c ∈ cs.getLast?, isBlank c = false

theorem trimStart_eq_self_iff {cs : List Char} :
    trimStart cs = cs ↔ ∀ c ∈ cs.head?, isBlank c = false := by
  cases cs with
  | nil => simp [trimStart]
  | cons c rest => simp [trimStart, List.dropWhile_eq_self_iff]

theorem trimEnd_eq_self_iff {cs : List Char} :
    trimEnd cs = cs ↔ ∀ c ∈ cs.getLast?, isBlank c = false := by
  rw [trimEnd, List.reverse_eq_iff, ← List.head?_reverse]
  exact trimStart_eq_self_iff

theorem trimChars_of_isTrimmed {cs : List Char} (h : IsTrimmed cs) : trimChars cs = cs := by
  rw [trimChars, trimStart_eq_self_iff.mpr h.1, trimEnd_eq_self_iff.mpr h.2]

theorem isTrimmed_trimChars (cs : List Char) : IsTrimmed (trimChars cs) :=
  ⟨trimStart_eq_self_iff.mp (trimStart_trimEnd_trimStart cs),
    trimEnd_eq_self_iff.mp (trimEnd_trimEnd (trimStart cs))⟩

/-- Trimming leaves nothing of a text of white space, and something of any other. -/
theorem trim_isEmpty (s : String) : (trim s).isEmpty = isBlankText s := by
  rw [Bool.eq_iff_iff, String.isEmpty_iff, trim, String.ofList_eq_empty_iff, trimChars, trimEnd,
    List.reverse_eq_nil_iff, List.dropWhile_eq_nil_iff, isBlankText, List.all_eq_true]
  constructor
  · -- A character that is gone from the front is blank, and so are those that are left there.
    intro rest c hc
    by_cases left : c ∈ trimStart s.toList
    · exact rest c (List.mem_reverse.mpr left)
    · rw [← List.takeWhile_append_dropWhile (p := isBlank) (l := s.toList)] at hc
      exact List.mem_takeWhile_imp ((List.mem_append.mp hc).resolve_right left)
  · intro all c hc
    exact all c ((List.dropWhile_sublist _).subset (List.mem_reverse.mp hc))

/-! ## White space around a text -/

theorem trimStart_append {before : List Char} (blank : ∀ c ∈ before, isBlank c = true)
    (cs : List Char) : trimStart (before ++ cs) = trimStart cs :=
  List.dropWhile_append_of_pos blank

theorem trimEnd_append {after : List Char} (blank : ∀ c ∈ after, isBlank c = true)
    (cs : List Char) : trimEnd (cs ++ after) = trimEnd cs := by
  rw [trimEnd, List.reverse_append, List.dropWhile_append_of_pos (by simpa using blank), trimEnd]

/-- A text with white space around it is trimmed to what it would be without. -/
theorem trimChars_around {before after : List Char} (blank : ∀ c ∈ before, isBlank c = true)
    (blank' : ∀ c ∈ after, isBlank c = true) (cs : List Char) :
    trimChars (before ++ cs ++ after) = trimChars cs := by
  rw [trimChars, List.append_assoc, trimStart_append blank, trimStart, List.dropWhile_append]
  split
  · next none =>
    have gone : after.dropWhile isBlank = [] := List.dropWhile_eq_nil_iff.mpr blank'
    rw [gone, trimChars, trimStart, List.isEmpty_iff.mp none]
  · exact trimEnd_append blank' _

/-- What is trimmed off is white space in front and behind. -/
theorem exists_around_trimChars (cs : List Char) :
    ∃ before after, (∀ c ∈ before, isBlank c = true) ∧ (∀ c ∈ after, isBlank c = true) ∧
      cs = before ++ trimChars cs ++ after := by
  refine ⟨cs.takeWhile isBlank, (trimStart cs).rtakeWhile isBlank, ?_, ?_, ?_⟩
  · exact fun c hc => List.mem_takeWhile_imp hc
  · exact fun c hc => List.mem_rtakeWhile_imp hc
  · have rest : trimChars cs ++ (trimStart cs).rtakeWhile isBlank = trimStart cs :=
      List.rdropWhile_append_rtakeWhile
    rw [List.append_assoc, rest, trimStart, List.takeWhile_append_dropWhile]

end PeerSearch.Text
