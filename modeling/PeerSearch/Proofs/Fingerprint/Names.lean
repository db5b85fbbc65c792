import PeerSearch.Proofs.Fingerprint
import PeerSearch.Proofs.Text.Words

/-!
# PeerSearch.Proofs.Fingerprint.Names -- names in normal form

Names are compared in a normal form that leaves neither the case of letters nor the amount and kind
of white space to tell them apart. Two names have one normal form exactly when their words agree but
for case, and the names in normal form are the texts in lower case with single spaces between their
words. So files that agree in size and extension are the same if the words of their names are, and
they are not both named by a hash.
-/

namespace PeerSearch

/-! ## Words and letters of a normal form -/

theorem toList_normalizeName (s : String) : (normalizeName s).toList =
    [' '].intercalate ((Text.words s.toList).map Text.lowerChars) :=
  String.toList_ofList

theorem isWord_of_mem_map_lowerChars {s : String} :
    ∀ w ∈ (Text.words s.toList).map Text.lowerChars, Text.IsWord w :=
  List.forall_mem_map.mpr fun _ hw => (Text.isWord_of_mem_words hw).lowerChars

/-- The normal form has the words of the name, in lower case. -/
theorem words_normalizeName (s : String) :
    Text.words (normalizeName s).toList = (Text.words s.toList).map Text.lowerChars := by
  rw [toList_normalizeName, Text.words_intercalate isWord_of_mem_map_lowerChars]

theorem singleSpaced_normalizeName (s : String) : Text.SingleSpaced (normalizeName s).toList := by
  rw [toList_normalizeName]
  exact Text.singleSpaced_intercalate isWord_of_mem_map_lowerChars

/-! ## One normal form for names with the same words -/

theorem normalizeName_eq_iff {s t : String} :
    normalizeName s = normalizeName t ↔ Text.SameWords s t := by
  rw [Text.sameWords_iff]
  constructor
  · intro same
    rw [← words_normalizeName, same, words_normalizeName]
  · intro same
    rw [normalizeName, same, normalizeName]

theorem normalizeName_normalizeName (s : String) :
    normalizeName (normalizeName s) = normalizeName s := by
  rw [normalizeName_eq_iff, Text.sameWords_iff, words_normalizeName, List.map_map]
  exact List.map_congr_left fun w _ => Text.lowerChars_lowerChars w

/-! ## The names in normal form -/

/-- A name is in normal form when it has single spaces between its words and its letters are in
lower case, and only then. -/
theorem normalizeName_eq_self_iff {s : String} :
    normalizeName s = s ↔ Text.SingleSpaced s.toList ∧ ∀ c ∈ s.toList, Text.IsLower c := by
  have space : Text.IsLower ' ' := by decide
  constructor
  · intro normal
    rw [← normal]
    refine ⟨singleSpaced_normalizeName s, ?_⟩
    rw [toList_normalizeName, Text.forall_mem_intercalate space]
    exact List.forall_mem_map.mpr fun w _ c hc => Text.isLower_of_mem_lowerFrom hc
  · rintro ⟨spaced, lower⟩
    have joined := Text.singleSpaced_iff.mp spaced
    rw [← joined, Text.forall_mem_intercalate space] at lower
    have same : (Text.words s.toList).map Text.lowerChars = Text.words s.toList := by
      refine (List.map_congr_left fun w hw => ?_).trans (List.map_id _)
      exact Text.lowerChars_eq_self_iff.mpr (lower w hw)
    rw [normalizeName, same, joined, String.ofList_toList]

/-! ## Files with the same words in their names -/

/-- Normalizing a name again changes nothing; a normal form has no white space but single spaces
between its words; two names share it exactly when their words are the same but for case; and the
names in normal form are the texts of single spaces in lower case. So two files that do not both have
a hash are identical when they agree in size, in extension but for case, and in the words of their
names. -/
theorem names_have_one_normal_form (s t : String) (a b : SearchResult) :
    normalizeName (normalizeName s) = normalizeName s ∧
    Text.SingleSpaced (normalizeName s).toList ∧
    (normalizeName s = normalizeName t ↔ Text.SameWords s t) ∧
    (normalizeName s = s ↔ Text.SingleSpaced s.toList ∧ ∀ c ∈ s.toList, Text.IsLower c) ∧
    ((a.hash = none ∨ b.hash = none) → a.size = b.size →
      Text.lower a.extension = Text.lower b.extension → Text.SameWords a.stem b.stem →
        a.compareTo b = .identical) := by
  refine ⟨normalizeName_normalizeName s, singleSpaced_normalizeName s, normalizeName_eq_iff,
    normalizeName_eq_self_iff, fun unhashed size extension words => ?_⟩
  have similar : (Fingerprint.ofResult a).similarNames (.ofResult b) = true :=
    Fingerprint.similarNames_of_eq (normalizeName_eq_iff.mpr words)
  exact Fingerprint.compareTo_eq_identical_iff.mpr ⟨extension, .inr ⟨unhashed, size, similar⟩⟩

/-- Two ways to write a sigma at the end of a word and a dotted capital I, with other white space. -/
theorem names_have_one_normal_form_of_two_spellings :
    let hash : ContentHash := ⟨List.replicate 32 'A', rfl⟩
    let a : SearchResult := { fileName := "ΟΔΟΣ \t İzmir.MP3", size := 7 }
    let b : SearchResult := { fileName := " οδος i̇ZMIR\u3000.mp3", size := 7, hash := some hash }
    (a.hash = none ∨ b.hash = none) ∧ a.size = b.size ∧
      Text.lower a.extension = Text.lower b.extension ∧ Text.SameWords a.stem b.stem ∧
      a.compareTo b = .identical := by
  intro hash a b
  have extension : Text.lower a.extension = Text.lower b.extension := by decide +kernel
  have words : Text.SameWords a.stem b.stem := by decide +kernel
  obtain ⟨-, -, -, -, identical⟩ := names_have_one_normal_form a.stem b.stem a b
  exact ⟨.inl rfl, rfl, extension, words, identical (.inl rfl) rfl extension words⟩

end PeerSearch
