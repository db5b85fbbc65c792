import Mathlib
import PeerSearch.Proofs.Text.Blank
import PeerSearch.Proofs.Text.LowerCase

/-!
# PeerSearch.Proofs.Text.Words -- words, and texts of words with single spaces between them

A text is made of words, and of white space in front of them, between them and behind. There is one
way only to read it like that, and `words` finds it. Words put together with single spaces are found
again; the texts that come about in this way are those that have no white space at either end and no
other white space than spaces that stand alone. A word in lower case is one word still, since no
letter has white space for its lower-case form.
-/

namespace PeerSearch.Text

/-! ## Reading a text as words -/

/-- Some characters, none of which is white space. -/
def IsWord (w : List Char) : Prop :=
  w ≠ [] ∧ ∀ c ∈ w, isBlank c = false

/-- The text is made of these words, in order, with white space in front of them, between them and
behind. -/
inductive MadeOf : List Char → List (List Char) → Prop
  | blank {cs : List Char} (blank : ∀ c ∈ cs, isBlank c = true) : MadeOf cs []
  | word {before w rest : List Char} {ws : List (List Char)}
      (blank : ∀ c ∈ before, isBlank c = true) (word : IsWord w)
      (ends : ∀ c ∈ rest.head?, isBlank c = true) (others : MadeOf rest ws) :
      MadeOf (before ++ w ++ rest) (w :: ws)

theorem MadeOf.isWord {cs : List Char} {ws : List (List Char)} (h : MadeOf cs ws) :
    ∀ w ∈ ws, IsWord w := by
  induction h with
  | blank => simp
  | word _ word _ _ ih => exact List.forall_mem_cons.mpr ⟨word, ih⟩

theorem MadeOf.cons_blank {cs : List Char} {ws : List (List Char)} {c : Char} (h : MadeOf cs ws)
    (hc : isBlank c = true) : MadeOf (c :: cs) ws := by
  cases h with
  | blank all => exact .blank (List.forall_mem_cons.mpr ⟨hc, all⟩)
  | word before word ends others =>
      exact MadeOf.word (List.forall_mem_cons.mpr ⟨hc, before⟩) word ends others

theorem MadeOf.cons_word {w rest : List Char} {ws : List (List Char)} (word : IsWord w)
    (ends : ∀ c ∈ rest.head?, isBlank c = true) (others : MadeOf rest ws) :
    MadeOf (w ++ rest) (w :: ws) :=
  MadeOf.word (List.forall_mem_nil _) word ends others

/-! ### The words that are found -/

/-- What has been read of a word stands in front of the rest of the text. -/
theorem madeOf_wordsFrom {word : List Char} (hword : ∀ c ∈ word, isBlank c = false)
    (cs : List Char) : MadeOf (word ++ cs) (wordsFrom word cs) := by
  induction cs generalizing word with
  | nil =>
      rw [wordsFrom]
      split
      · next none =>
        obtain rfl := List.isEmpty_iff.mp none
        exact .blank (List.forall_mem_nil _)
      · next begun =>
        exact .cons_word ⟨by simpa using begun, hword⟩ (by simp) (.blank (List.forall_mem_nil _))
  | cons c rest ih =>
      have others : MadeOf rest (wordsFrom [] rest) := ih (List.forall_mem_nil _)
      rw [wordsFrom]
      split
      · next hc =>
        split
        · next none =>
          obtain rfl := List.isEmpty_iff.mp none
          exact others.cons_blank hc
        · next begun =>
          exact .cons_word ⟨by simpa using begun, hword⟩ (by simpa using hc) (others.cons_blank hc)
      · next hc =>
        have longer : ∀ d ∈ word ++ [c], isBlank d = false :=
          List.forall_mem_append.mpr ⟨hword, by simpa using hc⟩
        have read := ih longer
        rwa [List.append_assoc] at read

theorem wordsFrom_append {w : List Char} (hw : ∀ c ∈ w, isBlank c = false) (word rest : List Char) :
    wordsFrom word (w ++ rest) = wordsFrom (word ++ w) rest := by
  induction w generalizing word with
  | nil => rw [List.nil_append, List.append_nil]
  | cons c w ih =>
      have ⟨first, others⟩ := List.forall_mem_cons.mp hw
      rw [List.cons_append, wordsFrom, if_neg (by simp [first]), ih others, List.append_assoc]
      rfl

theorem words_append_of_blank {before : List Char} (blank : ∀ c ∈ before, isBlank c = true)
    (cs : List Char) : words (before ++ cs) = words cs := by
  induction before with
  | nil => rfl
  | cons c before ih =>
      have ⟨first, others⟩ := List.forall_mem_cons.mp blank
      rw [List.cons_append, words, wordsFrom, if_pos first]
      exact ih others

theorem words_append_of_word {w rest : List Char} (hw : IsWord w)
    (ends : ∀ c ∈ rest.head?, isBlank c = true) : words (w ++ rest) = w :: words rest := by
  have begun : w.isEmpty = false := by simpa using hw.1
  rw [words, wordsFrom_append hw.2, List.nil_append]
  cases rest with
  | nil => rw [wordsFrom, begun]; rfl
  | cons c rest =>
      have hc : isBlank c = true := ends c rfl
      rw [wordsFrom, if_pos hc, begun, words, wordsFrom, if_pos hc]
      rfl

/-- A text is made of the words that are found in it, and of no others. -/
theorem words_eq_iff {cs : List Char} {ws : List (List Char)} : words cs = ws ↔ MadeOf cs ws := by
  constructor
  · rintro rfl
    exact madeOf_wordsFrom (List.forall_mem_nil _) cs
  · intro h
    induction h with
    | @blank cs all => rw [← List.append_nil cs, words_append_of_blank all]; rfl
    | word before word ends _ ih =>
        rw [List.append_assoc, words_append_of_blank before, words_append_of_word word ends, ih]

theorem isWord_of_mem_words {cs w : List Char} (hw : w ∈ words cs) : IsWord w :=
  (words_eq_iff.mp rfl).isWord w hw

/-! ## Single spaces -/

/-- A text without white space at its ends and with none inside but spaces that stand alone. -/
structure SingleSpaced (cs : List Char) : Prop where
  trimmed : IsTrimmed cs
  spaces : ∀ c ∈ cs, isBlank c = true → c = ' '
  alone : cs.IsChain fun c d => isBlank c = true → isBlank d = false

theorem singleSpaced_nil : SingleSpaced [] where
  trimmed := ⟨by simp, by simp⟩
  spaces := List.forall_mem_nil _
  alone := .nil

theorem IsWord.singleSpaced {w : List Char} (hw : IsWord w) : SingleSpaced w where
  trimmed := ⟨fun c hc => hw.2 c (List.mem_of_mem_head? hc),
    fun c hc => hw.2 c (List.mem_of_mem_getLast? hc)⟩
  spaces c hc blank := absurd blank (by simp [hw.2 c hc])
  alone := by
    have apart : w.Pairwise fun c d => isBlank c = true → isBlank d = false :=
      List.pairwise_of_forall_mem_list fun _ _ d hd _ => hw.2 d hd
    exact apart.isChain

/-- One more word in front of a text, with a space behind it. -/
theorem SingleSpaced.cons_word {w rest : List Char} (h : SingleSpaced rest) (hw : IsWord w)
    (nonempty : rest ≠ []) : SingleSpaced (w ++ ' ' :: rest) where
  trimmed := by
    constructor
    · rw [List.head?_append_of_ne_nil _ hw.1]
      exact hw.singleSpaced.trimmed.1
    · rw [List.getLast?_append_of_ne_nil _ (List.cons_ne_nil _ _),
        List.getLast?_cons_of_ne_nil nonempty]
      exact h.trimmed.2
  spaces := by
    refine List.forall_mem_append.mpr ⟨hw.singleSpaced.spaces, ?_⟩
    exact List.forall_mem_cons.mpr ⟨fun _ => rfl, h.spaces⟩
  alone := by
    refine List.isChain_append.mpr ⟨hw.singleSpaced.alone, ?_, ?_⟩
    · exact List.isChain_cons.mpr ⟨fun d hd _ => h.trimmed.1 d hd, h.alone⟩
    · intro c hc d _ blank
      exact absurd blank (by simp [hw.singleSpaced.trimmed.2 c hc])

/-- Behind a word the text ends, or one space stands there and something else behind that. -/
theorem SingleSpaced.behind_word {w rest : List Char} (h : SingleSpaced (w ++ rest))
    (ends : ∀ c ∈ rest.head?, isBlank c = true) :
    rest = [] ∨ ∃ tail, rest = ' ' :: tail ∧ tail ≠ [] ∧ SingleSpaced tail := by
  cases rest with
  | nil => exact .inl rfl
  | cons c tail =>
      have hc : isBlank c = true := ends c rfl
      have last : ∀ d ∈ (c :: tail).getLast?, isBlank d = false := fun d hd =>
        h.trimmed.2 d (List.mem_getLast?_append_of_mem_getLast? hd)
      have spaces := (List.forall_mem_append.mp h.spaces).2
      obtain ⟨next, alone⟩ := List.isChain_cons.mp (List.isChain_append.mp h.alone).2.1
      have nonempty : tail ≠ [] := by
        rintro rfl
        exact absurd hc (by simp [last c rfl])
      rw [List.getLast?_cons_of_ne_nil nonempty] at last
      refine .inr ⟨tail, ?_, nonempty, ⟨fun d hd => next d hd hc, last⟩, ?_, alone⟩
      · rw [spaces c List.mem_cons_self hc]
      · exact (List.forall_mem_cons.mp spaces).2

/-! ### Words with single spaces between them -/

theorem intercalate_cons {w : List Char} {ws : List (List Char)} (nonempty : ws ≠ []) :
    [' '].intercalate (w :: ws) = w ++ ' ' :: [' '].intercalate ws := by
  obtain ⟨v, vs, rfl⟩ := List.exists_cons_of_ne_nil nonempty
  rw [List.intercalate_cons_cons, List.append_assoc, List.singleton_append]

theorem intercalate_eq_nil_iff {ws : List (List Char)} (hws : ∀ w ∈ ws, IsWord w) :
    [' '].intercalate ws = [] ↔ ws = [] := by
  cases ws with
  | nil => simp
  | cons w ws =>
      obtain ⟨first, -⟩ := List.forall_mem_cons.mp hws
      by_cases none : ws = []
      · simp [none, first.1]
      · simp [intercalate_cons none]

theorem forall_mem_intercalate {p : Char → Prop} (space : p ' ') {ws : List (List Char)} :
    (∀ c ∈ [' '].intercalate ws, p c) ↔ ∀ w ∈ ws, ∀ c ∈ w, p c := by
  induction ws with
  | nil => simp
  | cons w ws ih =>
      by_cases none : ws = []
      · simp [none]
      · rw [intercalate_cons none, List.forall_mem_append, List.forall_mem_cons, ih,
          List.forall_mem_cons, and_iff_right space]

theorem singleSpaced_intercalate {ws : List (List Char)} (hws : ∀ w ∈ ws, IsWord w) :
    SingleSpaced ([' '].intercalate ws) := by
  induction ws with
  | nil => exact singleSpaced_nil
  | cons w ws ih =>
      obtain ⟨first, others⟩ := List.forall_mem_cons.mp hws
      by_cases none : ws = []
      · rw [none, List.intercalate_singleton]
        exact first.singleSpaced
      · rw [intercalate_cons none]
        exact (ih others).cons_word first (mt (intercalate_eq_nil_iff others).mp none)

theorem madeOf_intercalate {ws : List (List Char)} (hws : ∀ w ∈ ws, IsWord w) :
    MadeOf ([' '].intercalate ws) ws := by
  induction ws with
  | nil => exact .blank (List.forall_mem_nil _)
  | cons w ws ih =>
      obtain ⟨first, others⟩ := List.forall_mem_cons.mp hws
      by_cases none : ws = []
      · have made := MadeOf.cons_word first (by simp) (.blank (List.forall_mem_nil _))
        rw [List.append_nil] at made
        rwa [none, List.intercalate_singleton]
      · have space : isBlank ' ' = true := by decide
        rw [intercalate_cons none]
        exact .cons_word first (by simpa using space) ((ih others).cons_blank space)

/-- Words put together with single spaces are found again. -/
theorem words_intercalate {ws : List (List Char)} (hws : ∀ w ∈ ws, IsWord w) :
    words ([' '].intercalate ws) = ws :=
  words_eq_iff.mpr (madeOf_intercalate hws)

theorem MadeOf.eq_intercalate {cs : List Char} {ws : List (List Char)} (h : MadeOf cs ws)
    (spaced : SingleSpaced (trimStart cs)) : trimStart cs = [' '].intercalate ws := by
  induction h with
  | blank all => exact List.dropWhile_eq_nil_iff.mpr all
  | @word before w rest ws blank word ends others ih =>
      have bare : trimStart (before ++ w ++ rest) = w ++ rest := by
        rw [List.append_assoc, trimStart_append blank, trimStart_eq_self_iff,
          List.head?_append_of_ne_nil _ word.1]
        exact word.singleSpaced.trimmed.1
      rw [bare] at spaced ⊢
      rcases spaced.behind_word ends with rfl | ⟨tail, rfl, nonempty, behind⟩
      · have none : [] = ws := words_eq_iff.mpr others
        rw [← none, List.intercalate_singleton, List.append_nil]
      · have next : trimStart (' ' :: tail) = tail := trimStart_eq_self_iff.mpr behind.trimmed.1
        have made := ih (next.symm ▸ behind)
        rw [next] at made
        have more : ws ≠ [] := by
          rintro rfl
          exact nonempty made
        rw [intercalate_cons more, made]

/-- The texts of single spaces are those that are their words put together with them. -/
theorem singleSpaced_iff {cs : List Char} :
    SingleSpaced cs ↔ [' '].intercalate (words cs) = cs := by
  constructor
  · intro h
    have start := trimStart_eq_self_iff.mpr h.trimmed.1
    have made := (words_eq_iff.mp rfl).eq_intercalate (start.symm ▸ h)
    rw [← made, start]
  · intro h
    rw [← h]
    exact singleSpaced_intercalate fun _ => isWord_of_mem_words

/-! ## Words in lower case -/

/-- The code points of white space. -/
def blanks : Ranges :=
  [(0x09, 0x0D), (0x20, 0x20), (0x85, 0x85), (0xA0, 0xA0), (0x1680, 0x1680), (0x2000, 0x200A),
   (0x2028, 0x2029), (0x202F, 0x202F), (0x205F, 0x205F), (0x3000, 0x3000)]

theorem isBlank_eq_holds (c : Char) : isBlank c = blanks.holds c := by
  rw [Bool.eq_iff_iff]
  simp only [isBlank, blanks, Ranges.holds, List.any_cons, List.any_nil, Bool.or_eq_true,
    Bool.and_eq_true, decide_eq_true_eq, beq_iff_eq, Bool.false_eq_true]
  grind

/-- All that the run yields lies between two code points of white space. -/
def CaseRun.yieldsNoBlank (run : CaseRun) : Bool :=
  blanks.all fun r => run.high.blt r.1 || r.2.blt run.low

theorem lowerRuns_yieldNoBlank : lowerRuns.all CaseRun.yieldsNoBlank = true := by
  decide +kernel

theorem not_isBlank_of_run {run : CaseRun} (hrun : run ∈ lowerRuns) {n : Nat}
    (hn : run.holds n = true) {c : Char} (hc : (c.toNat : Int) = n + run.offset) :
    isBlank c = false := by
  obtain ⟨place, -, high, -⟩ := CaseRun.yields (yieldsLetters_of_mem hrun) hn hc
  rw [isBlank_eq_holds, Ranges.holds, List.any_eq_false]
  intro r hr
  have apart := List.all_eq_true.mp (List.all_eq_true.mp lowerRuns_yieldNoBlank run hrun) r hr
  simp only [Bool.or_eq_true, Bool.and_eq_true, Nat.blt_eq, decide_eq_true_eq] at apart ⊢
  omega

/-- Lower-casing makes no white space of a letter. -/
theorem not_isBlank_of_mem_lowerChar {c d : Char} (hc : isBlank c = false) (hd : d ∈ lowerChar c) :
    isBlank d = false := by
  rcases lowerChar_cases c with same | ⟨-, dotted⟩ | ⟨run, hrun, holds, yields⟩
  · rw [same, List.mem_singleton] at hd
    rwa [hd]
  · rw [dotted, List.mem_pair] at hd
    rcases hd with rfl | rfl <;> decide
  · rw [yields, List.mem_singleton] at hd
    subst hd
    rcases toNat_yield hrun holds with zero | place
    · rw [zero]
      decide
    · exact not_isBlank_of_run hrun holds place

theorem not_isBlank_of_mem_lowerFrom {cs before : List Char} (hcs : ∀ c ∈ cs, isBlank c = false)
    {d : Char} (hd : d ∈ lowerFrom before cs) : isBlank d = false := by
  induction cs generalizing before with
  | nil => cases hd
  | cons c rest ih =>
      obtain ⟨first, others⟩ := List.forall_mem_cons.mp hcs
      rw [lowerFrom, List.mem_append] at hd
      rcases hd with hd | hd
      · split at hd
        · rw [List.mem_singleton.mp hd, lowerSigma]
          split <;> decide
        · exact not_isBlank_of_mem_lowerChar first hd
      · exact ih others hd

/-- A word in lower case is a word. -/
theorem IsWord.lowerChars {w : List Char} (hw : IsWord w) : IsWord (lowerChars w) :=
  ⟨mt lowerChars_eq_nil_iff.mp hw.1, fun _ => not_isBlank_of_mem_lowerFrom hw.2⟩

/-- One after the other, the words of both texts have the same lower-case form. -/
def SameWords (s t : String) : Prop :=
  List.Forall₂ (fun v w => lowerChars v = lowerChars w) (words s.toList) (words t.toList)

instance (s t : String) : Decidable (SameWords s t) :=
  inferInstanceAs (Decidable (List.Forall₂ _ _ _))

theorem sameWords_iff {s t : String} :
    SameWords s t ↔ (words s.toList).map lowerChars = (words t.toList).map lowerChars := by
  rw [← @List.forall₂_eq_eq_eq (List Char), List.forall₂_map_left_iff, List.forall₂_map_right_iff]
  rfl

end PeerSearch.Text
