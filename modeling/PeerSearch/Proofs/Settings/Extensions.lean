import PeerSearch.Proofs.Text.Ascii
import PeerSearch.Proofs.Text.Blank
import PeerSearch.Settings.Resolved

/-!
# PeerSearch.Proofs.Settings.Extensions -- what is left of a list of extensions

Cleaning an extension takes white space off both ends, then dots off the start, and puts ASCII
letters in lower case. The list of cleaned extensions has each of them once, where it came first. It
is in its final form unless white space stands behind leading dots: then the dots had covered white
space that is at the start now.
-/

namespace PeerSearch

namespace Settings

variable {x y e : String} {xs seen : List String}

/-! ## One extension -/

/-- The characters of a cleaned extension. -/
theorem toList_cleanExtension (x : String) :
    (cleanExtension x).toList =
      ((Text.trimChars x.toList).dropWhile (· == '.')).map Text.asciiLowerChar := by
  rw [cleanExtension, Registry.extensionKey, Text.asciiLower, String.toList_ofList,
    String.toList_ofList]

theorem asciiLowerChar_eq_dot_iff {c : Char} : Text.asciiLowerChar c = '.' ↔ c = '.' := by
  rw [← Char.toNat_inj, ← Char.toNat_inj, Text.toNat_asciiLowerChar]
  have dot : '.'.toNat = 0x2E := rfl
  split_ifs <;> omega

/-- Behind leading dots, a trimmed text has the end that it had. -/
theorem getLast?_dropWhile_of_isTrimmed {cs : List Char} (trimmed : Text.IsTrimmed cs)
    (p : Char → Bool) : ∀ c ∈ (cs.dropWhile p).getLast?, Text.isBlank c = false := by
  intro c hc
  refine trimmed.2 c ?_
  have ne : cs.dropWhile p ≠ [] := by
    rintro none
    rw [none] at hc
    cases hc
  rw [← List.takeWhile_append_dropWhile (p := p) (l := cs), List.getLast?_append_of_ne_nil _ ne]
  exact hc

/-- A cleaned extension has no white space at its end, no dot at its start and no capital. -/
structure IsClean (e : String) : Prop where
  ending : ∀ c ∈ e.toList.getLast?, Text.isBlank c = false
  start : ∀ c ∈ e.toList.head?, c ≠ '.'
  small : ∀ c ∈ e.toList, ¬ ('A' ≤ c ∧ c ≤ 'Z')

theorem cleanExtension_isClean (x : String) : IsClean (cleanExtension x) := by
  constructor
  · intro c hc
    rw [toList_cleanExtension, List.getLast?_map] at hc
    obtain ⟨d, hd, rfl⟩ := Option.map_eq_some_iff.mp hc
    rw [Text.isBlank_asciiLowerChar]
    exact getLast?_dropWhile_of_isTrimmed (Text.isTrimmed_trimChars _) _ d hd
  · intro c hc dot
    rw [toList_cleanExtension, List.head?_map] at hc
    obtain ⟨d, hd, rfl⟩ := Option.map_eq_some_iff.mp hc
    have head := List.head?_dropWhile_not (· == '.') (Text.trimChars x.toList)
    rw [hd, asciiLowerChar_eq_dot_iff.mp dot] at head
    cases head
  · rintro c hc ⟨low, high⟩
    rw [toList_cleanExtension] at hc
    obtain ⟨d, -, rfl⟩ := List.mem_map.mp hc
    have low : 0x41 ≤ (Text.asciiLowerChar d).toNat := low
    have high : (Text.asciiLowerChar d).toNat ≤ 0x5A := high
    rw [Text.toNat_asciiLowerChar] at low high
    split_ifs at low high <;> omega

theorem cleanExtension_of_isClean (clean : IsClean e)
    (first : ∀ c ∈ e.toList.head?, Text.isBlank c = false) : cleanExtension e = e := by
  apply String.toList_injective
  rw [toList_cleanExtension, Text.trimChars_of_isTrimmed ⟨first, clean.ending⟩]
  have start : e.toList.dropWhile (· == '.') = e.toList := by
    cases hs : e.toList with
    | nil => rfl
    | cons c rest =>
        have head := clean.start c (by rw [hs]; rfl)
        exact List.dropWhile_cons_of_neg (by simpa using head)
  rw [start]
  conv_rhs => rw [← List.map_id' e.toList]
  refine List.map_congr_left fun c hc => ?_
  have small : ¬ (0x41 ≤ c.toNat ∧ c.toNat ≤ 0x5A) := clean.small c hc
  rw [← Char.toNat_inj, Text.toNat_asciiLowerChar, if_neg small]

/-- Cleaning takes white space at the start away, and with it something. -/
theorem cleanExtension_ne_of_blank {c : Char} (first : c ∈ e.toList.head?)
    (blank : Text.isBlank c = true) : cleanExtension e ≠ e := by
  intro same
  have length := congrArg List.length (congrArg String.toList same)
  rw [toList_cleanExtension, List.length_map] at length
  obtain ⟨rest, hs⟩ := List.head?_eq_some_iff.mp first
  have short : (Text.trimChars e.toList).length ≤ rest.length := by
    rw [hs, Text.trimChars, Text.trimStart, List.dropWhile_cons_of_pos blank]
    exact (Text.trimEnd_isPrefix _).length_le.trans (List.length_dropWhile_le _ _)
  have dots := List.length_dropWhile_le (· == '.') (Text.trimChars e.toList)
  have total : e.toList.length = rest.length + 1 := congrArg List.length hs
  omega

/-! ## White space behind dots -/

/-- Behind the white space at its start, the extension has dots, then white space, and then more
than white space. -/
def BlankBehindDots (x : String) : Prop :=
  ∃ before dots c rest, x.toList = before ++ (dots ++ c :: rest) ∧
    (∀ b ∈ before, Text.isBlank b = true) ∧ (∀ d ∈ dots, d = '.') ∧ dots ≠ [] ∧
    Text.isBlank c = true ∧ ∃ d ∈ rest, Text.isBlank d = false

/-- Taking white space off the end leaves what stands in front of something else. -/
theorem trimEnd_append_cons {front rest : List Char} {d : Char} (hd : d ∈ rest)
    (plain : Text.isBlank d = false) :
    Text.trimEnd (front ++ rest) = front ++ Text.trimEnd rest := by
  rw [Text.trimEnd, List.reverse_append, List.dropWhile_append]
  have some_left : rest.reverse.dropWhile Text.isBlank ≠ [] := fun none =>
    Bool.false_ne_true (plain.symm.trans
      (List.dropWhile_eq_nil_iff.mp none d (List.mem_reverse.mpr hd)))
  rw [if_neg (by simpa using some_left), List.reverse_append, List.reverse_reverse, Text.trimEnd]

/-- It is white space behind dots that a cleaned extension starts with. -/
theorem cleanExtension_starts_blank_iff :
    (∃ c ∈ (cleanExtension x).toList.head?, Text.isBlank c = true) ↔ BlankBehindDots x := by
  rw [toList_cleanExtension]
  constructor
  · rintro ⟨c, hc, blank⟩
    rw [List.head?_map] at hc
    obtain ⟨d, hd, rfl⟩ := Option.map_eq_some_iff.mp hc
    rw [Text.isBlank_asciiLowerChar] at blank
    obtain ⟨before, after, blanks, -, parts⟩ := Text.exists_around_trimChars x.toList
    have trimmed := Text.isTrimmed_trimChars x.toList
    set core := Text.trimChars x.toList
    obtain ⟨rest, behind⟩ := List.head?_eq_some_iff.mp hd
    obtain ⟨dots, alone, split⟩ : ∃ dots, (∀ e ∈ dots, e = '.') ∧ core = dots ++ d :: rest := by
      refine ⟨core.takeWhile (· == '.'), fun e he => ?_, ?_⟩
      · simpa using List.mem_takeWhile_imp he
      · rw [← behind, List.takeWhile_append_dropWhile]
    refine ⟨before, dots, d, rest ++ after, ?_, blanks, alone, ?_, blank, ?_⟩
    · simp [parts, split]
    · rintro rfl
      have plain := trimmed.1 d (by rw [split]; rfl)
      exact Bool.false_ne_true (plain.symm.trans blank)
    · obtain ⟨last, hlast⟩ : ∃ last, (d :: rest).getLast? = some last :=
        ⟨_, List.getLast?_eq_some_getLast (List.cons_ne_nil d rest)⟩
      have plain := trimmed.2 last (by
        rw [split, List.getLast?_append_of_ne_nil _ (List.cons_ne_nil d rest)]
        exact hlast)
      rcases List.mem_cons.mp (List.mem_of_getLast? hlast) with rfl | later
      · exact absurd (plain.symm.trans blank) Bool.false_ne_true
      · exact ⟨last, List.mem_append_left _ later, plain⟩
  · rintro ⟨before, dots, c, rest, parts, blanks, alone, ne, blank, d, hd, plain⟩
    have started : Text.trimStart (dots ++ c :: rest) = dots ++ c :: rest := by
      rw [Text.trimStart_eq_self_iff]
      obtain ⟨e, others, rfl⟩ := List.exists_cons_of_ne_nil ne
      rintro e ⟨⟩
      rw [alone e List.mem_cons_self]
      decide
    have core : Text.trimChars x.toList = dots ++ c :: Text.trimEnd rest := by
      rw [parts, Text.trimChars, Text.trimStart_append blanks, started, List.append_cons,
        trimEnd_append_cons hd plain, ← List.append_cons]
    have other : ¬ (c == '.') = true := by
      intro dot
      rw [beq_iff_eq.mp dot] at blank
      cases blank
    rw [core, List.dropWhile_append_of_pos (by simpa using alone), List.dropWhile_cons,
      if_neg other]
    exact ⟨_, rfl, (Text.isBlank_asciiLowerChar c).trans blank⟩

/-- A cleaned extension is not changed by cleaning it again, unless it starts with white space. -/
theorem cleanExtension_fixed_iff :
    cleanExtension (cleanExtension x) = cleanExtension x ↔ ¬ BlankBehindDots x := by
  rw [← cleanExtension_starts_blank_iff]
  constructor
  · rintro same ⟨c, first, blank⟩
    exact cleanExtension_ne_of_blank first blank same
  · intro plain
    refine cleanExtension_of_isClean (cleanExtension_isClean x) fun c first => ?_
    exact Bool.eq_false_of_not_eq_true fun blank => plain ⟨c, first, blank⟩

/-! ## The list -/

theorem sanitizeFrom_cons (seen : List String) (x : String) (rest : List String) :
    sanitizeFrom seen (x :: rest) =
      if cleanExtension x = "" ∨ cleanExtension x ∈ seen then sanitizeFrom seen rest
      else cleanExtension x :: sanitizeFrom (cleanExtension x :: seen) rest := by
  simp [sanitizeFrom, String.isEmpty_iff]

theorem mem_sanitizeFrom_iff :
    e ∈ sanitizeFrom seen xs ↔ e ≠ "" ∧ e ∉ seen ∧ ∃ x ∈ xs, cleanExtension x = e := by
  induction xs generalizing seen with
  | nil => simp [sanitizeFrom]
  | cons x rest ih =>
      rw [sanitizeFrom_cons, List.exists_mem_cons_iff]
      split
      · next skipped =>
        rw [ih]
        refine and_congr_right fun ne => and_congr_right fun new => (or_iff_right ?_).symm
        rintro rfl
        exact skipped.elim ne new
      · next kept =>
        rw [not_or] at kept
        rw [List.mem_cons, ih, List.mem_cons]
        by_cases same : e = cleanExtension x
        · simp [same, kept]
        · simp [same, Ne.symm same]

/-- Entries stand in the order in which they first come up. -/
theorem sanitizeFrom_pairwise :
    (sanitizeFrom seen xs).Pairwise fun e f =>
      (xs.map cleanExtension).idxOf e < (xs.map cleanExtension).idxOf f := by
  induction xs generalizing seen with
  | nil => exact .nil
  | cons x rest ih =>
      have later {seen : List String} (out : ∀ e ∈ sanitizeFrom seen rest, cleanExtension x ≠ e) :
          (sanitizeFrom seen rest).Pairwise fun e f =>
            ((x :: rest).map cleanExtension).idxOf e <
              ((x :: rest).map cleanExtension).idxOf f := by
        refine ih.imp_of_mem fun he hf before => ?_
        rw [List.map_cons, List.idxOf_cons_ne _ (out _ he), List.idxOf_cons_ne _ (out _ hf)]
        exact Nat.succ_lt_succ before
      rw [sanitizeFrom_cons]
      split
      · next skipped =>
        refine later fun e he same => ?_
        obtain ⟨ne, new, -⟩ := mem_sanitizeFrom_iff.mp he
        exact (same ▸ skipped).elim ne new
      · have out : ∀ e ∈ sanitizeFrom (cleanExtension x :: seen) rest, cleanExtension x ≠ e := by
          rintro e he rfl
          exact (mem_sanitizeFrom_iff.mp he).2.1 List.mem_cons_self
        refine List.pairwise_cons.mpr ⟨fun e he => ?_, later out⟩
        rw [List.map_cons, List.idxOf_cons_self, List.idxOf_cons_ne _ (out e he)]
        exact Nat.succ_pos _

theorem sanitizeFrom_sublist : (sanitizeFrom seen xs).Sublist (xs.map cleanExtension) := by
  induction xs generalizing seen with
  | nil => exact .slnil
  | cons x rest ih =>
      rw [sanitizeFrom_cons, List.map_cons]
      split
      · exact ih.cons _
      · exact ih.cons_cons _

theorem mem_sanitizeExtensions_iff :
    e ∈ sanitizeExtensions xs ↔ e ≠ "" ∧ ∃ x ∈ xs, cleanExtension x = e := by
  rw [sanitizeExtensions, mem_sanitizeFrom_iff]
  simp

theorem sanitizeExtensions_nodup (xs : List String) : (sanitizeExtensions xs).Nodup :=
  sanitizeFrom_pairwise.imp fun before same => absurd (same ▸ before) (lt_irrefl _)

/-- Different extensions that are clean are kept as they are. -/
theorem sanitizeFrom_of_fixed (nodup : xs.Nodup) (new : ∀ e ∈ xs, e ∉ seen)
    (fixed : ∀ e ∈ xs, e ≠ "" ∧ cleanExtension e = e) : sanitizeFrom seen xs = xs := by
  induction xs generalizing seen with
  | nil => rfl
  | cons x rest ih =>
      obtain ⟨first, others⟩ := List.nodup_cons.mp nodup
      have ⟨ne, same⟩ := fixed x List.mem_cons_self
      rw [sanitizeFrom_cons, same, if_neg (not_or.mpr ⟨ne, new x List.mem_cons_self⟩)]
      refine congrArg (x :: ·) (ih others (fun e he => ?_) fun e he => fixed e ?_)
      · rw [List.mem_cons, not_or]
        exact ⟨fun h => first (h ▸ he), new e (List.mem_cons_of_mem _ he)⟩
      · exact List.mem_cons_of_mem _ he

/-- The cleaned list is kept when it is cleaned again exactly if cleaning keeps each entry. -/
theorem sanitizeExtensions_fixed_iff :
    sanitizeExtensions (sanitizeExtensions xs) = sanitizeExtensions xs ↔
      ∀ e ∈ sanitizeExtensions xs, cleanExtension e = e := by
  constructor
  · intro same
    have all : (sanitizeExtensions xs).Sublist ((sanitizeExtensions xs).map cleanExtension) := by
      conv_lhs => rw [← same]
      exact sanitizeFrom_sublist
    have each := all.eq_of_length (List.length_map _).symm
    intro e he
    have id := (List.map_id _).trans each
    exact (List.map_inj_left.mp id e he).symm
  · intro fixed
    refine sanitizeFrom_of_fixed (sanitizeExtensions_nodup xs) (by simp) fun e he => ?_
    exact ⟨(mem_sanitizeExtensions_iff.mp he).1, fixed e he⟩

/-! ## Spellings of one extension -/

/-- What an extension is when leading dots and white space, trailing white space and ASCII case do
not count. -/
def bareExtension (x : String) : List Char :=
  (Text.trimEnd (x.toList.dropWhile fun c => c == '.' || Text.isBlank c)).map Text.asciiLowerChar

/-- Without white space behind dots, cleaning leaves nothing that does not count. -/
theorem toList_cleanExtension_eq_bareExtension (plain : ¬ BlankBehindDots x) :
    (cleanExtension x).toList = bareExtension x := by
  obtain ⟨before, after, blanks, blanks', parts⟩ := Text.exists_around_trimChars x.toList
  have ending := getLast?_dropWhile_of_isTrimmed (Text.isTrimmed_trimChars x.toList) (· == '.')
  rw [toList_cleanExtension, bareExtension]
  refine congrArg (List.map Text.asciiLowerChar) ?_
  set core := Text.trimChars x.toList with hcore
  have stripped : (core ++ after).dropWhile (fun c => c == '.' || Text.isBlank c) =
      (core.dropWhile (· == '.') ++ after).dropWhile fun c => c == '.' || Text.isBlank c := by
    conv_lhs => rw [← List.takeWhile_append_dropWhile (p := (· == '.')) (l := core)]
    rw [List.append_assoc, List.dropWhile_append_of_pos]
    exact fun c hc => by simp [List.mem_takeWhile_imp hc]
  rw [parts, List.append_assoc, List.dropWhile_append_of_pos (by simp +contextual [blanks]),
    stripped]
  cases left : core.dropWhile (· == '.') with
  | nil =>
      have none : after.dropWhile (fun c => c == '.' || Text.isBlank c) = [] :=
        List.dropWhile_eq_nil_iff.mpr (by simp +contextual [blanks'])
      rw [List.nil_append, none]
      rfl
  | cons c rest =>
      have other : ¬ (c == '.') = true := by
        have head := List.head?_dropWhile_not (· == '.') core
        rw [left] at head
        simpa using head
      have letter : ¬ Text.isBlank c = true := fun blank =>
        plain (cleanExtension_starts_blank_iff.mp ⟨Text.asciiLowerChar c,
          by rw [toList_cleanExtension, ← hcore, left]; rfl,
          (Text.isBlank_asciiLowerChar c).trans blank⟩)
      rw [List.cons_append, List.dropWhile_cons, if_neg (by simp [other, letter]),
        ← List.cons_append, Text.trimEnd_append blanks']
      rw [left] at ending
      exact (Text.trimEnd_eq_self_iff.mpr ending).symm

/-! ## The result -/

theorem cleanExtension_ne_empty (behind : BlankBehindDots x) : cleanExtension x ≠ "" := by
  obtain ⟨c, first, -⟩ := cleanExtension_starts_blank_iff.mpr behind
  intro none
  rw [none] at first
  cases first

/-- Cleaned extensions are those given, each once and in the order in which they come first. They do
not end with white space, start with a dot or have a capital. That none starts with white space, and
that cleaning the list again leaves it as it is, holds exactly if no extension given has white space
behind leading dots. Spellings without that which differ in leading dots and white space, trailing
white space and ASCII case come to one extension. -/
theorem extensions_final_unless_blank_behind_dots (xs : List String) :
    (∀ e, e ∈ sanitizeExtensions xs ↔ e ≠ "" ∧ ∃ x ∈ xs, cleanExtension x = e) ∧
      (sanitizeExtensions xs).Nodup ∧
      (sanitizeExtensions xs).Pairwise (fun e f =>
        (xs.map cleanExtension).idxOf e < (xs.map cleanExtension).idxOf f) ∧
      (∀ e ∈ sanitizeExtensions xs, IsClean e) ∧
      ((∀ e ∈ sanitizeExtensions xs, ∀ c ∈ e.toList.head?, Text.isBlank c = false) ↔
        ∀ x ∈ xs, ¬ BlankBehindDots x) ∧
      (sanitizeExtensions (sanitizeExtensions xs) = sanitizeExtensions xs ↔
        ∀ x ∈ xs, ¬ BlankBehindDots x) ∧
      ∀ x ∈ xs, ∀ y ∈ xs, ¬ BlankBehindDots x → ¬ BlankBehindDots y →
        bareExtension x = bareExtension y → cleanExtension x = cleanExtension y := by
  have kept {x : String} (hx : x ∈ xs) (behind : BlankBehindDots x) :
      cleanExtension x ∈ sanitizeExtensions xs :=
    mem_sanitizeExtensions_iff.mpr ⟨cleanExtension_ne_empty behind, x, hx, rfl⟩
  refine ⟨fun e => mem_sanitizeExtensions_iff, sanitizeExtensions_nodup xs, sanitizeFrom_pairwise,
    ?clean, ?start, ?again, ?one⟩
  case clean =>
    intro e he
    obtain ⟨-, x, -, rfl⟩ := mem_sanitizeExtensions_iff.mp he
    exact cleanExtension_isClean x
  case start =>
    constructor
    · intro plain x hx behind
      obtain ⟨c, first, blank⟩ := cleanExtension_starts_blank_iff.mpr behind
      have letter := plain _ (kept hx behind) c first
      exact Bool.false_ne_true (letter.symm.trans blank)
    · intro plain e he c first
      obtain ⟨-, x, hx, rfl⟩ := mem_sanitizeExtensions_iff.mp he
      refine Bool.eq_false_of_not_eq_true fun blank => plain x hx ?_
      exact cleanExtension_starts_blank_iff.mp ⟨c, first, blank⟩
  case again =>
    rw [sanitizeExtensions_fixed_iff]
    constructor
    · intro fixed x hx behind
      exact cleanExtension_fixed_iff.mp (fixed _ (kept hx behind)) behind
    · intro plain e he
      obtain ⟨-, x, hx, rfl⟩ := mem_sanitizeExtensions_iff.mp he
      exact cleanExtension_fixed_iff.mpr (plain x hx)
  case one =>
    intro x _ y _ plain plain' same
    apply String.toList_injective
    rw [toList_cleanExtension_eq_bareExtension plain,
      toList_cleanExtension_eq_bareExtension plain', same]

/-- White space that stands behind a dot is left at the start, the list is not in its final form,
and two spellings of one extension are both kept. -/
theorem dot_covers_blank :
    sanitizeExtensions [". mp3", ".mp3"] = [" mp3", "mp3"] ∧
      sanitizeExtensions [" mp3", "mp3"] = ["mp3"] ∧
      bareExtension ". mp3" = bareExtension ".mp3" := by
  decide +kernel

end Settings

end PeerSearch
