import Mathlib
import PeerSearch.Text.Ascii
import PeerSearch.Text.LowerCase

/-!
# PeerSearch.Proofs.Text.LowerCase -- how lower-casing and ASCII case fit together

A text in lower case stays as it is when it is lower-cased again, and texts that differ in ASCII
case only have the same lower-case form. The converse holds of ASCII texts: outside ASCII, lower-casing
takes more texts for the same. Facts about the tables are checked in one go, and so that each entry
is looked at few times.
-/

namespace PeerSearch.Text

/-! ## The twenty-six letters -/

theorem upper_cases {c : Char} (h : ('A' ≤ c && c ≤ 'Z') = true) :
    ∃ n < 26, c = Char.ofNat (65 + n) := by
  rw [Bool.and_eq_true, decide_eq_true_eq, decide_eq_true_eq, Char.le_def, Char.le_def,
    UInt32.le_iff_toNat_le, UInt32.le_iff_toNat_le] at h
  obtain ⟨low, high⟩ := h
  have low : 65 ≤ c.toNat := low
  have high : c.toNat ≤ 90 := high
  refine ⟨c.toNat - 65, by omega, ?_⟩
  rw [Nat.add_sub_cancel' low, Char.ofNat_toNat]

theorem toNat_upper {n : Nat} (hn : n < 26) : (Char.ofNat (65 + n)).toNat = 65 + n := by
  interval_cases n <;> rfl

/-- What does not tell an ASCII letter from its lower-case form does not tell any characters apart
that differ in ASCII case. -/
theorem asciiLowerChar_congr {α : Type} (f : Char → α)
    (letters : ∀ n < 26, f (Char.ofNat (65 + n + 32)) = f (Char.ofNat (65 + n))) (c : Char) :
    f (asciiLowerChar c) = f c := by
  unfold asciiLowerChar
  split
  · next upper =>
    obtain ⟨n, hn, rfl⟩ := upper_cases upper
    rw [toNat_upper hn]
    exact letters n hn
  · rfl

/-- What the tables say of ASCII letters and of their lower-case forms. -/
theorem letters_table : ∀ n < 26,
    lowerChar (Char.ofNat (65 + n)) = [Char.ofNat (65 + n + 32)] ∧
      lowerChar (Char.ofNat (65 + n + 32)) = [Char.ofNat (65 + n + 32)] ∧
      casedLetters.holds (Char.ofNat (65 + n)) = true ∧
      casedLetters.holds (Char.ofNat (65 + n + 32)) = true := by
  decide +kernel

theorem lowerChar_asciiLowerChar (c : Char) : lowerChar (asciiLowerChar c) = lowerChar c :=
  asciiLowerChar_congr lowerChar
    (fun n hn => (letters_table n hn).2.1.trans (letters_table n hn).1.symm) c

/-- No range holds an ASCII letter. -/
def Ranges.missLetters (ranges : Ranges) : Bool :=
  ranges.all fun r =>
    r.2.blt 0x41 || Nat.blt 0x7A r.1 || (Nat.blt 0x5A r.1 && r.2.blt 0x61)

theorem Ranges.not_holds_letter {ranges : Ranges} (miss : ranges.missLetters = true) {c : Char}
    (letter : 0x41 ≤ c.toNat ∧ c.toNat ≤ 0x5A ∨ 0x61 ≤ c.toNat ∧ c.toNat ≤ 0x7A) :
    ranges.holds c = false := by
  rw [holds, List.any_eq_false]
  intro r hr
  have apart := List.all_eq_true.mp miss r hr
  simp only [Bool.or_eq_true, Bool.and_eq_true, Nat.blt_eq, decide_eq_true_eq] at apart ⊢
  omega

theorem caseIgnorable_asciiLowerChar (c : Char) :
    caseIgnorable.holds (asciiLowerChar c) = caseIgnorable.holds c := by
  have miss : caseIgnorable.missLetters = true := by decide +kernel
  refine asciiLowerChar_congr caseIgnorable.holds (fun n hn => ?_) c
  rw [Ranges.not_holds_letter miss, Ranges.not_holds_letter miss]
  · interval_cases n <;> decide
  · interval_cases n <;> decide

theorem casedLetters_asciiLowerChar (c : Char) :
    casedLetters.holds (asciiLowerChar c) = casedLetters.holds c :=
  asciiLowerChar_congr casedLetters.holds
    (fun n hn => (letters_table n hn).2.2.2.trans (letters_table n hn).2.2.1.symm) c

theorem sigma_asciiLowerChar (c : Char) : (asciiLowerChar c == 'Σ') = (c == 'Σ') :=
  asciiLowerChar_congr (· == 'Σ') (fun n hn => by interval_cases n <;> rfl) c

/-! ## ASCII case under lower-casing -/

theorem leadsToCased_asciiLower (cs : List Char) :
    leadsToCased (cs.map asciiLowerChar) = leadsToCased cs := by
  unfold leadsToCased
  induction cs with
  | nil => rfl
  | cons c rest ih =>
      rw [List.map_cons, List.dropWhile_cons, List.dropWhile_cons, caseIgnorable_asciiLowerChar]
      cases caseIgnorable.holds c with
      | true => exact ih
      | false => exact casedLetters_asciiLowerChar c

theorem lowerFrom_asciiLower (before cs : List Char) :
    lowerFrom (before.map asciiLowerChar) (cs.map asciiLowerChar) = lowerFrom before cs := by
  induction cs generalizing before with
  | nil => rfl
  | cons c rest ih =>
      have ih := ih (c :: before)
      rw [List.map_cons] at ih ⊢
      rw [lowerFrom, lowerFrom, ih, sigma_asciiLowerChar, lowerChar_asciiLowerChar, lowerSigma,
        lowerSigma, leadsToCased_asciiLower, leadsToCased_asciiLower]

theorem lowerChars_asciiLower (cs : List Char) :
    lowerChars (cs.map asciiLowerChar) = lowerChars cs :=
  lowerFrom_asciiLower [] cs

theorem sameIgnoringAsciiCase_comm (s t : String) :
    sameIgnoringAsciiCase s t = sameIgnoringAsciiCase t s :=
  BEq.comm

theorem sameIgnoringAsciiCase_iff {s t : String} :
    sameIgnoringAsciiCase s t = true ↔ asciiLower s = asciiLower t := by
  rw [sameIgnoringAsciiCase, beq_iff_eq, asciiLower, asciiLower]
  exact ⟨congrArg String.ofList, fun h => String.ofList_injective h⟩

/-- Texts that differ in ASCII case only have the same lower-case form. -/
theorem lower_eq_of_same {s t : String} (h : sameIgnoringAsciiCase s t = true) :
    lower s = lower t := by
  rw [sameIgnoringAsciiCase, beq_iff_eq] at h
  rw [lower, ← lowerChars_asciiLower s.toList, h, lowerChars_asciiLower, lower]

/-- An ASCII text, for which both notions of case are the same. -/
def isAscii (s : String) : Bool :=
  s.toList.all (·.toNat < 0x80)

theorem lowerChar_of_ascii {c : Char} (h : c.toNat < 0x80) : lowerChar c = [asciiLowerChar c] := by
  rw [lowerChar, if_pos h, asciiLowerChar]
  split <;> rfl

theorem lowerFrom_of_ascii {cs : List Char} (h : ∀ c ∈ cs, c.toNat < 0x80) (before : List Char) :
    lowerFrom before cs = cs.map asciiLowerChar := by
  induction cs generalizing before with
  | nil => rfl
  | cons c rest ih =>
      have ⟨first, others⟩ := List.forall_mem_cons.mp h
      have plain : (c == 'Σ') = false := by
        rw [beq_eq_false_iff_ne]
        rintro rfl
        exact absurd first (by decide)
      rw [lowerFrom, plain, if_neg Bool.false_ne_true, lowerChar_of_ascii first, ih others]
      rfl

theorem lower_of_ascii {s : String} (h : isAscii s = true) : lower s = asciiLower s := by
  have plain : ∀ c ∈ s.toList, c.toNat < 0x80 := by
    simpa [isAscii] using h
  rw [lower, lowerChars, lowerFrom_of_ascii plain, asciiLower]

theorem isAscii_asciiLower {s : String} (h : isAscii s = true) : isAscii (asciiLower s) = true := by
  have small (c : Char) : decide ((asciiLowerChar c).toNat < 0x80) = decide (c.toNat < 0x80) :=
    asciiLowerChar_congr (fun c => decide (c.toNat < 0x80))
      (fun n hn => by interval_cases n <;> rfl) c
  rw [isAscii, asciiLower, String.toList_ofList, List.all_map]
  simp only [Function.comp_def, small]
  exact h

/-! ## Lower-casing twice -/

/-- A character that lower-casing leaves as it is, wherever it stands. -/
def IsLower (c : Char) : Prop :=
  c ≠ 'Σ' ∧ lowerChar c = [c]

instance (c : Char) : Decidable (IsLower c) :=
  inferInstanceAs (Decidable (_ ∧ _))

/-- The lower-case forms that are not read off a run. -/
theorem isLower_special :
    IsLower 'i' ∧ IsLower (Char.ofNat 0x307) ∧ IsLower 'σ' ∧ IsLower 'ς' := by
  decide +kernel

theorem lowerFrom_of_isLower {cs : List Char} (h : ∀ c ∈ cs, IsLower c) (before : List Char) :
    lowerFrom before cs = cs := by
  induction cs generalizing before with
  | nil => rfl
  | cons c rest ih =>
      have ⟨first, others⟩ := List.forall_mem_cons.mp h
      rw [lowerFrom, beq_false_of_ne first.1, if_neg Bool.false_ne_true, first.2, ih others]
      rfl

/-! ### What the runs yield -/

/-- The first and the last code point that the run yields. -/
def CaseRun.low (run : CaseRun) : Nat :=
  (run.first + run.offset).toNat

def CaseRun.high (run : CaseRun) : Nat :=
  (run.last + run.offset).toNat

/-- No code point that the run yields is one that another run lists: they lie apart, or between the
other's steps of two. -/
def CaseRun.yieldsNothingOf (q r : CaseRun) : Bool :=
  q.high.blt r.first || r.last.blt q.low ||
    (r.stride == 2 && (q.stride == 2 || q.first == q.last) && (q.low + r.first) % 2 == 1)

/-- The run yields no code point that is zero or less, and not the dotted capital I. -/
def CaseRun.yieldsLetters (run : CaseRun) : Bool :=
  decide (0 < run.first + run.offset) &&
    (run.high.blt 0x130 || Nat.blt 0x130 run.low || (run.stride == 2 && run.low % 2 == 1))

theorem CaseRun.holds_iff {run : CaseRun} {n : Nat} :
    run.holds n = true ↔ run.first ≤ n ∧ n ≤ run.last ∧ (n - run.first) % run.stride = 0 := by
  simp [holds, and_assoc]

theorem CaseRun.yields {run : CaseRun} (letters : run.yieldsLetters = true) {n m : Nat}
    (hn : run.holds n = true) (hm : (m : Int) = n + run.offset) :
    m = run.low + (n - run.first) ∧ n - run.first ≤ run.last - run.first ∧
      m ≤ run.high ∧ (n - run.first) % run.stride = 0 := by
  rw [holds_iff] at hn
  simp only [yieldsLetters, Bool.and_eq_true, decide_eq_true_eq] at letters
  unfold low high
  omega

theorem CaseRun.not_holds_of_yieldsNothingOf {q r : CaseRun} (letters : q.yieldsLetters = true)
    (apart : q.yieldsNothingOf r = true) {n m : Nat} (hn : q.holds n = true)
    (hm : (m : Int) = n + q.offset) : r.holds m = false := by
  obtain ⟨place, inside, high, step⟩ := yields letters hn hm
  rw [Bool.eq_false_iff, ne_eq, holds_iff]
  rintro ⟨first, last, step'⟩
  simp only [yieldsNothingOf, Bool.or_eq_true, Bool.and_eq_true, Nat.blt_eq, beq_iff_eq] at apart
  rcases apart with (below | above) | ⟨⟨two, steps⟩, odd⟩
  · omega
  · omega
  · rw [two] at step'
    rcases steps with two' | single
    · rw [two'] at step
      omega
    · omega

/-- A code point that no run lists, and that is no dotted capital I. -/
def Unmoved (n : Nat) : Prop :=
  n ≠ 0x130 ∧ ∀ run ∈ lowerRuns, run.holds n = false

/-- Bounds of the code points that some runs list. -/
def lowest (runs : List CaseRun) : Nat :=
  runs.foldr (fun run n => min run.first n) 0x110000

def highest (runs : List CaseRun) : Nat :=
  runs.foldr (fun run n => max run.last n) 0

theorem lowest_le {runs : List CaseRun} {run : CaseRun} (h : run ∈ runs) :
    lowest runs ≤ run.first := by
  induction runs with
  | nil => cases h
  | cons r rest ih =>
      show min r.first (lowest rest) ≤ run.first
      rcases List.mem_cons.mp h with rfl | h
      · exact Nat.min_le_left _ _
      · exact (Nat.min_le_right _ _).trans (ih h)

theorem le_highest {runs : List CaseRun} {run : CaseRun} (h : run ∈ runs) :
    run.last ≤ highest runs := by
  induction runs with
  | nil => cases h
  | cons r rest ih =>
      show run.last ≤ max r.last (highest rest)
      rcases List.mem_cons.mp h with rfl | h
      · exact Nat.le_max_left _ _
      · exact (ih h).trans (Nat.le_max_right _ _)

/-- The run yields nothing of what the others list. Halving them spares looking at each: most halves
lie apart from the run as a whole. -/
def CaseRun.clearOf (q : CaseRun) : Nat → List CaseRun → Bool
  | 0, runs => runs.all q.yieldsNothingOf
  | halvings + 1, runs =>
    q.high.blt (lowest runs) || (highest runs).blt q.low ||
      (q.clearOf halvings (runs.take (runs.length / 2)) &&
        q.clearOf halvings (runs.drop (runs.length / 2)))

theorem CaseRun.clearOf_spec {q : CaseRun} {halvings : Nat} {runs : List CaseRun}
    (clear : q.clearOf halvings runs = true) {r : CaseRun} (hr : r ∈ runs) :
    q.yieldsNothingOf r = true := by
  induction halvings generalizing runs with
  | zero => exact List.all_eq_true.mp clear r hr
  | succ halvings ih =>
      simp only [clearOf, Bool.or_eq_true, Bool.and_eq_true, Nat.blt_eq] at clear
      simp only [yieldsNothingOf, Bool.or_eq_true, Nat.blt_eq]
      rcases clear with (below | above) | ⟨front, back⟩
      · exact .inl (.inl (below.trans_le (lowest_le hr)))
      · exact .inl (.inr ((le_highest hr).trans_lt above))
      · rw [← List.take_append_drop (runs.length / 2) runs, List.mem_append] at hr
        have apart := hr.elim (ih front) (ih back)
        simpa only [yieldsNothingOf, Bool.or_eq_true, Nat.blt_eq] using apart

/-- What is checked of the table: no run yields what a run lists, and one lists capital sigma. -/
theorem lowerRuns_table :
    (lowerRuns.all fun q => q.yieldsLetters && q.clearOf 6 lowerRuns) = true ∧
      lowerRuns.any (·.holds 0x3A3) = true := by
  decide +kernel

theorem yieldsLetters_of_mem {q : CaseRun} (hq : q ∈ lowerRuns) : q.yieldsLetters = true :=
  (Bool.and_eq_true_iff.mp (List.all_eq_true.mp lowerRuns_table.1 q hq)).1

theorem yieldsNothing_of_mem {q r : CaseRun} (hq : q ∈ lowerRuns) (hr : r ∈ lowerRuns) :
    q.yieldsNothingOf r = true :=
  CaseRun.clearOf_spec (Bool.and_eq_true_iff.mp (List.all_eq_true.mp lowerRuns_table.1 q hq)).2 hr

theorem unmoved_of_run {run : CaseRun} (hrun : run ∈ lowerRuns) {n m : Nat}
    (hn : run.holds n = true) (hm : (m : Int) = n + run.offset) : Unmoved m := by
  have letters := yieldsLetters_of_mem hrun
  refine ⟨?_, fun r hr =>
    CaseRun.not_holds_of_yieldsNothingOf letters (yieldsNothing_of_mem hrun hr) hn hm⟩
  obtain ⟨place, -, high, step⟩ := CaseRun.yields letters hn hm
  simp only [CaseRun.yieldsLetters, Bool.and_eq_true, Bool.or_eq_true, Nat.blt_eq, beq_iff_eq]
    at letters
  rcases letters.2 with (below | above) | ⟨two, odd⟩
  · omega
  · omega
  · rw [two] at step
    omega

/-! ### Characters and texts in lower case -/

/-- A character is its own lower-case form, or it is dotted capital I, or a run yields its
lower-case form. -/
theorem lowerChar_cases (c : Char) :
    lowerChar c = [c] ∨ (c.toNat = 0x130 ∧ lowerChar c = ['i', Char.ofNat 0x307]) ∨
      ∃ run ∈ lowerRuns, run.holds c.toNat = true ∧
        lowerChar c = [Char.ofNat (c.toNat + run.offset).toNat] := by
  have upper : ⟨0x41, 0x5A, 1, 32⟩ ∈ lowerRuns := List.mem_cons_self
  unfold lowerChar
  split
  · split
    · next letter =>
      obtain ⟨n, hn, rfl⟩ := upper_cases letter
      refine .inr (.inr ⟨_, upper, ?_, rfl⟩)
      interval_cases n <;> decide
    · exact .inl rfl
  · split
    · next dotted => exact .inr (.inl ⟨by simpa using dotted, rfl⟩)
    · split
      · next run found =>
        have holds := List.find?_some found
        exact .inr (.inr ⟨run, List.mem_of_find?_eq_some found, holds, rfl⟩)
      · exact .inl rfl

theorem isLower_of_unmoved {c : Char} (h : Unmoved c.toNat) : IsLower c := by
  constructor
  · rintro rfl
    obtain ⟨run, hrun, holds⟩ := List.any_eq_true.mp lowerRuns_table.2
    exact absurd (h.2 run hrun) (by rw [show 'Σ'.toNat = 0x3A3 from rfl, holds]; decide)
  · rcases lowerChar_cases c with same | ⟨dotted, -⟩ | ⟨run, hrun, holds, -⟩
    · exact same
    · exact absurd dotted h.1
    · exact absurd holds (by rw [h.2 run hrun]; decide)

/-- What a run yields at a code point; a number that is no character is read as the first one. -/
theorem toNat_yield {run : CaseRun} {n : Nat} (hrun : run ∈ lowerRuns) (hn : run.holds n = true) :
    Char.ofNat (n + run.offset).toNat = Char.ofNat 0 ∨
      ((Char.ofNat (n + run.offset).toNat).toNat : Int) = n + run.offset := by
  have letters := yieldsLetters_of_mem hrun
  have first := (CaseRun.holds_iff.mp hn).1
  simp only [CaseRun.yieldsLetters, Bool.and_eq_true, decide_eq_true_eq] at letters
  by_cases valid : Nat.isValidChar (n + run.offset).toNat
  · right
    rw [Char.toNat_ofNat, if_pos valid]
    omega
  · left
    rw [Char.ofNat, dif_neg valid]
    rfl

/-- Lower-casing yields characters that it leaves as they are. -/
theorem isLower_of_mem_lowerChar {c d : Char} (plain : c ≠ 'Σ') (hd : d ∈ lowerChar c) :
    IsLower d := by
  rcases lowerChar_cases c with same | ⟨-, dotted⟩ | ⟨run, hrun, holds, yields⟩
  · rw [same, List.mem_singleton] at hd
    subst hd
    exact ⟨plain, same⟩
  · obtain ⟨letter, dot, -⟩ := isLower_special
    rw [dotted, List.mem_pair] at hd
    rcases hd with rfl | rfl
    · exact letter
    · exact dot
  · rw [yields, List.mem_singleton] at hd
    subst hd
    rcases toNat_yield hrun holds with zero | place
    · rw [zero]
      exact ⟨by decide, by decide⟩
    · exact isLower_of_unmoved (unmoved_of_run hrun holds place)

theorem isLower_lowerSigma (before after : List Char) : IsLower (lowerSigma before after) := by
  unfold lowerSigma
  split
  · exact isLower_special.2.2.2
  · exact isLower_special.2.2.1

theorem isLower_of_mem_lowerFrom {before cs : List Char} {d : Char}
    (hd : d ∈ lowerFrom before cs) : IsLower d := by
  induction cs generalizing before with
  | nil => cases hd
  | cons c rest ih =>
      rw [lowerFrom, List.mem_append] at hd
      rcases hd with hd | hd
      · split at hd
        · rw [List.mem_singleton.mp hd]
          exact isLower_lowerSigma before rest
        · next other => exact isLower_of_mem_lowerChar (by simpa using other) hd
      · exact ih hd

/-- Lower-casing leaves a text as it is exactly when it does so with each of its characters. -/
theorem lowerChars_eq_self_iff {cs : List Char} : lowerChars cs = cs ↔ ∀ c ∈ cs, IsLower c := by
  constructor
  · intro h c hc
    rw [← h] at hc
    exact isLower_of_mem_lowerFrom hc
  · exact fun h => lowerFrom_of_isLower h []

/-- A text in lower case stays as it is. -/
@[simp] theorem lowerChars_lowerChars (cs : List Char) :
    lowerChars (lowerChars cs) = lowerChars cs :=
  lowerChars_eq_self_iff.mpr fun _ => isLower_of_mem_lowerFrom

@[simp] theorem lower_lower (s : String) : lower (lower s) = lower s := by
  rw [lower, lower, String.toList_ofList, lowerChars_lowerChars]

/-! ## Length -/

theorem lowerChar_ne_nil (c : Char) : lowerChar c ≠ [] := by
  unfold lowerChar
  repeat' split
  all_goals exact List.cons_ne_nil _ _

theorem lowerChars_eq_nil_iff {cs : List Char} : lowerChars cs = [] ↔ cs = [] := by
  constructor
  · intro none
    cases cs with
    | nil => rfl
    | cons c rest =>
        rw [lowerChars, lowerFrom, List.append_eq_nil_iff] at none
        split at none
        · cases none.1
        · exact absurd none.1 (lowerChar_ne_nil c)
  · rintro rfl
    rfl

theorem lower_eq_empty_iff {s : String} : lower s = "" ↔ s = "" := by
  rw [lower, String.ofList_eq_empty_iff, lowerChars_eq_nil_iff, String.toList_eq_nil_iff]

theorem ne_empty_of_same {s t : String} (h : sameIgnoringAsciiCase s t = true) (ht : t ≠ "") :
    s ≠ "" := by
  rintro rfl
  exact ht (lower_eq_empty_iff.mp (lower_eq_of_same h).symm)

end PeerSearch.Text
