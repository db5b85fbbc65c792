import PeerSearch.Proofs.Text.Ascii
import PeerSearch.Proofs.Text.Blank
import PeerSearch.SearchResult.Record

/-!
# PeerSearch.Proofs.ContentHash -- which texts are content hashes

A text is a digest in a frame: white space around it and, in front of it, the scheme in whatever
case, once at most. Every text has one digest in this sense, and it is a content hash exactly if the
digest is spelt with thirty-two letters and digits of the alphabet, in either case. Texts are kept
as bytes, so reading also looks at byte positions; they never lie within a character.
-/

namespace PeerSearch

namespace ContentHash

variable {s t : String} {digest : List Char}

/-! ## The grammar -/

/-- The text is the digest with white space around it, behind the scheme in whatever ASCII case or
behind nothing. -/
def Framed (s : String) (digest : List Char) : Prop :=
  ∃ before name after, s.toList = before ++ (name ++ digest) ++ after ∧
    (∀ c ∈ before, Text.isBlank c = true) ∧ (∀ c ∈ after, Text.isBlank c = true) ∧
    Text.IsTrimmed (name ++ digest) ∧
    (name.map Text.asciiLowerChar = scheme ∨
      name = [] ∧ ¬ scheme <+: digest.map Text.asciiLowerChar)

/-- Thirty-two letters and digits of the alphabet, in either case. -/
def IsSpelling (digest : List Char) : Prop :=
  digest.length = 32 ∧
    ∀ c ∈ digest, 'A' ≤ c ∧ c ≤ 'Z' ∨ 'a' ≤ c ∧ c ≤ 'z' ∨ '2' ≤ c ∧ c ≤ '7'

theorem scheme_eq : scheme = ['u', 'r', 'n', ':', 's', 'h', 'a', '1', ':'] := rfl

theorem map_asciiLowerChar_scheme : scheme.map Text.asciiLowerChar = scheme := by
  rw [scheme_eq]
  decide

theorem dropScheme_of_scheme {name : List Char} (h : name.map Text.asciiLowerChar = scheme) :
    dropScheme (name ++ digest) = digest := by
  have length : scheme.length = name.length := by
    rw [← h, List.length_map]
  rw [dropScheme, length, List.take_left, List.drop_left, h, if_pos (by simp)]

theorem dropScheme_of_no_scheme (h : ¬ scheme <+: digest.map Text.asciiLowerChar) :
    dropScheme digest = digest := by
  rw [dropScheme, if_neg]
  rwa [beq_iff_eq, List.map_take, eq_comm, ← List.prefix_iff_eq_take]

/-- Every text has one digest. -/
theorem framed_iff : Framed s digest ↔ digest = dropScheme (Text.trimChars s.toList) := by
  constructor
  · rintro ⟨before, name, after, parts, blank, blank', trimmed, named⟩
    rw [parts, Text.trimChars_around blank blank', Text.trimChars_of_isTrimmed trimmed]
    rcases named with named | ⟨rfl, bare⟩
    · exact (dropScheme_of_scheme named).symm
    · exact (dropScheme_of_no_scheme bare).symm
  · rintro rfl
    obtain ⟨before, after, blank, blank', parts⟩ := Text.exists_around_trimChars s.toList
    have trimmed := Text.isTrimmed_trimChars s.toList
    set core := Text.trimChars s.toList
    by_cases named : (core.take scheme.length).map Text.asciiLowerChar = scheme
    · have split : core.take scheme.length ++ dropScheme core = core := by
        rw [dropScheme, if_pos (by simpa using named), List.take_append_drop]
      refine ⟨before, core.take scheme.length, after, ?_, blank, blank', ?_, .inl named⟩
      · rw [split]
        exact parts
      · rw [split]
        exact trimmed
    · have bare : ¬ scheme <+: core.map Text.asciiLowerChar := by
        rwa [List.prefix_iff_eq_take, ← List.map_take, eq_comm]
      have whole : dropScheme core = core := dropScheme_of_no_scheme bare
      rw [whole]
      exact ⟨before, [], after, parts, blank, blank', trimmed, .inr ⟨rfl, bare⟩⟩

/-! ## Characters of the alphabet -/

theorem isBase32_iff {c : Char} :
    isBase32 c = true ↔ 0x41 ≤ c.toNat ∧ c.toNat ≤ 0x5A ∨ 0x32 ≤ c.toNat ∧ c.toNat ≤ 0x37 := by
  rw [isBase32, Bool.or_eq_true, Bool.and_eq_true, Bool.and_eq_true]
  simp only [decide_eq_true_eq]
  rfl

theorem isBase32_asciiUpperChar_iff {c : Char} :
    isBase32 (Text.asciiUpperChar c) = true ↔
      'A' ≤ c ∧ c ≤ 'Z' ∨ 'a' ≤ c ∧ c ≤ 'z' ∨ '2' ≤ c ∧ c ≤ '7' := by
  have points : ('A' ≤ c ∧ c ≤ 'Z' ∨ 'a' ≤ c ∧ c ≤ 'z' ∨ '2' ≤ c ∧ c ≤ '7') ↔
      (0x41 ≤ c.toNat ∧ c.toNat ≤ 0x5A ∨ 0x61 ≤ c.toNat ∧ c.toNat ≤ 0x7A ∨
        0x32 ≤ c.toNat ∧ c.toNat ≤ 0x37) := Iff.rfl
  rw [points, isBase32_iff, Text.toNat_asciiUpperChar]
  split_ifs <;> omega

theorem asciiUpperChar_of_isBase32 {c : Char} (h : isBase32 c = true) :
    Text.asciiUpperChar c = c := by
  rw [isBase32_iff] at h
  rw [← Char.toNat_inj, Text.toNat_asciiUpperChar, if_neg (by omega)]

theorem isBlank_of_isBase32 {c : Char} (h : isBase32 c = true) : Text.isBlank c = false := by
  rw [isBase32_iff] at h
  exact Text.isBlank_of_printable (by omega)

/-- The digests that can be read are the spellings. -/
theorem isDigest_map_asciiUpperChar_iff :
    isDigest (digest.map Text.asciiUpperChar) = true ↔ IsSpelling digest := by
  rw [isDigest, Bool.and_eq_true, beq_iff_eq, List.length_map, List.all_map, List.all_eq_true]
  exact and_congr_right fun _ => forall₂_congr fun c _ => isBase32_asciiUpperChar_iff

/-! ## Bytes -/

theorem utf8Size_of_ascii {c : Char} (h : c.toNat < 0x80) : c.utf8Size = 1 := by
  rw [Char.utf8Size_eq_one_iff, UInt32.le_iff_toNat_le, Char.toNat_val]
  exact Nat.le_of_lt_succ h

theorem byteLength_cons (c : Char) (cs : List Char) :
    byteLength (c :: cs) = c.utf8Size + byteLength cs := rfl

/-- ASCII characters take a byte each. -/
theorem byteLength_of_ascii {cs : List Char} (h : ∀ c ∈ cs, c.toNat < 0x80) :
    byteLength cs = cs.length := by
  induction cs with
  | nil => rfl
  | cons c cs ih =>
      have ⟨first, others⟩ := List.forall_mem_cons.mp h
      rw [byteLength_cons, utf8Size_of_ascii first, ih others, List.length_cons, Nat.add_comm]

theorem IsSpelling.byteLength_eq (h : IsSpelling digest) : byteLength digest = 32 := by
  rw [byteLength_of_ascii, h.1]
  intro c hc
  have ascii : 'z'.toNat < 0x80 := by decide
  rcases h.2 c hc with ⟨-, high⟩ | ⟨-, high⟩ | ⟨-, high⟩
  all_goals
    have high : c.toNat ≤ _ := high
    exact lt_of_le_of_lt high (by decide)

/-! ## Reading -/

theorem read_eq_ok_iff (framed : Framed s digest) {h : ContentHash} :
    read s = .ok h ↔ IsSpelling digest ∧ h.digest = digest.map Text.asciiUpperChar := by
  rw [framed_iff] at framed
  rw [read, ← framed, ← isDigest_map_asciiUpperChar_iff]
  dsimp only
  split
  · next long =>
    refine iff_of_false nofun fun spelt => long ?_
    exact (isDigest_map_asciiUpperChar_iff.mp spelt.1).byteLength_eq
  · split
    · next spelt =>
      refine ⟨fun ok => ?_, fun ⟨_, same⟩ => ?_⟩
      · cases ok
        exact ⟨spelt, rfl⟩
      · cases h
        cases same
        rfl
    · next bad => exact iff_of_false nofun fun spelt => bad spelt.1

theorem read_eq_error_iff (framed : Framed s digest) {flaw : Flaw} :
    read s = .error flaw ↔
      ¬ IsSpelling digest ∧ (flaw = .length ↔ byteLength digest ≠ 32) := by
  rw [framed_iff] at framed
  rw [read, ← framed, ← isDigest_map_asciiUpperChar_iff]
  dsimp only
  split
  · next long =>
    have unspelt : ¬ IsSpelling digest := fun spelt => long spelt.byteLength_eq
    rw [isDigest_map_asciiUpperChar_iff]
    cases flaw <;> simp [unspelt, long]
  · next short =>
    split
    · next spelt => exact iff_of_false nofun fun h => h.1 spelt
    · next bad => cases flaw <;> simp [bad, short]

/-- A record whose hash cannot be read is refused with the text as it stands. -/
theorem readHash_ofText (s : String) :
    SearchResult.readHash (.ofText s) = (read s).mapError (.invalidHash s) := by
  have value : SearchResult.require (Json.ofText s).text? = .ok s := rfl
  rw [SearchResult.readHash, value]
  dsimp only [bind, Except.bind]
  cases read s <;> rfl

/-! ## The canonical text -/

theorem urn_eq (h : ContentHash) : h.urn = "urn:sha1:" ++ String.ofList h.digest := by
  have name : String.ofList scheme = "urn:sha1:" := String.ofList_toList
  rw [urn, String.ofList_append, name]

theorem urn_eq_iff {h : ContentHash} {cs : List Char} :
    h.urn = "urn:sha1:" ++ String.ofList cs ↔ h.digest = cs := by
  constructor
  · intro same
    rw [urn_eq] at same
    have same := congrArg String.toList same
    simp only [String.toList_append, String.toList_ofList] at same
    exact List.append_cancel_left same
  · rintro rfl
    exact urn_eq h

/-- The canonical text of a hash is its digest behind the scheme. -/
theorem framed_urn (h : ContentHash) : Framed h.urn h.digest := by
  obtain ⟨length, alphabet⟩ := Bool.and_eq_true_iff.mp h.isDigest_digest
  have plain : ∀ c ∈ h.digest, Text.isBlank c = false := fun c hc =>
    isBlank_of_isBase32 (List.all_eq_true.mp alphabet c hc)
  refine ⟨[], scheme, [], ?_, by simp, by simp, ⟨?_, ?_⟩, .inl map_asciiLowerChar_scheme⟩
  · rw [urn, String.toList_ofList, List.append_nil, List.nil_append]
  · rintro c first
    rw [scheme_eq] at first
    cases first
    decide
  · intro c last
    have ne : h.digest ≠ [] := by
      rintro none
      rw [none] at length
      cases length
    rw [List.getLast?_append_of_ne_nil _ ne] at last
    exact plain c (List.mem_of_getLast? last)

theorem isSpelling_digest (h : ContentHash) :
    IsSpelling h.digest ∧ h.digest = h.digest.map Text.asciiUpperChar := by
  have alphabet := List.all_eq_true.mp (Bool.and_eq_true_iff.mp h.isDigest_digest).2
  have fixed : h.digest.map Text.asciiUpperChar = h.digest := by
    rw [List.map_congr_left fun c hc => asciiUpperChar_of_isBase32 (alphabet c hc), List.map_id']
  refine ⟨isDigest_map_asciiUpperChar_iff.mp ?_, fixed.symm⟩
  rw [fixed]
  exact h.isDigest_digest

theorem read_urn (h : ContentHash) : read h.urn = .ok h :=
  (read_eq_ok_iff (framed_urn h)).mpr (isSpelling_digest h)

/-! ## Reading by byte positions -/

/-- The text in front of a byte position and the text behind it, unless the text ends before or a
character stands across. -/
def cutAt? : Nat → List Char → Option (List Char × List Char)
  | 0, cs => some ([], cs)
  | _ + 1, [] => none
  | n + 1, c :: rest =>
    if c.utf8Size ≤ n + 1 then
      (cutAt? (n + 1 - c.utf8Size) rest).map fun (front, back) => (c :: front, back)
    else none

/-- A byte of the canonical alphabet. -/
def isBase32Byte (b : UInt8) : Bool :=
  (0x41 ≤ b && b ≤ 0x5A) || (0x32 ≤ b && b ≤ 0x37)

/-- The text behind the scheme. To see whether the scheme stands in front, the text is looked at up
to a byte position if it can be cut there; what follows is then cut off, which has no outcome within
a character. -/
def behindScheme? (cs : List Char) : Option (List Char) :=
  match cutAt? (byteLength scheme) cs with
  | some (front, _) =>
    if front.map Text.asciiLowerChar == scheme then (cutAt? (byteLength scheme) cs).map (·.2)
    else some cs
  | none => some cs

/-- The canonical text of a digest whose bytes are of the alphabet. -/
def readDigestBytes (digest : List Char) : Except Flaw String :=
  let upper := digest.map Text.asciiUpperChar
  if byteLength digest ≠ 32 then .error .length
  else if (upper.flatMap String.utf8EncodeChar).all isBase32Byte then
    .ok (String.ofList (scheme ++ upper))
  else .error .alphabet

/-- Reads the canonical text from a text that is kept as bytes. There is no outcome where the text
would be cut within a character. -/
def readBytes? (value : String) : Option (Except Flaw String) :=
  (behindScheme? (Text.trimChars value.toList)).map readDigestBytes

theorem byteLength_eq_zero_iff {cs : List Char} : byteLength cs = 0 ↔ cs = [] := by
  cases cs with
  | nil => exact iff_of_true rfl rfl
  | cons c cs =>
      have size := c.utf8Size_pos
      rw [byteLength_cons]
      exact iff_of_false (by omega) (List.cons_ne_nil c cs)

/-- A text is cut where the position lies between two characters. -/
theorem cutAt?_eq_some_iff {n : Nat} {cs front back : List Char} :
    cutAt? n cs = some (front, back) ↔ cs = front ++ back ∧ byteLength front = n := by
  induction cs generalizing n front with
  | nil =>
      cases n with
      | zero =>
          rw [byteLength_eq_zero_iff]
          cases front <;> simp [cutAt?, eq_comm]
      | succ n =>
          refine iff_of_false nofun fun ⟨parts, length⟩ => ?_
          rw [(List.append_eq_nil_iff.mp parts.symm).1] at length
          cases length
  | cons c cs ih =>
      cases n with
      | zero =>
          rw [byteLength_eq_zero_iff]
          cases front <;> simp [cutAt?, eq_comm]
      | succ n =>
          cases front with
          | nil =>
              refine iff_of_false (fun cut => ?_) fun h => Nat.succ_ne_zero n h.2.symm
              rw [cutAt?] at cut
              split at cut
              · obtain ⟨parts, -, h⟩ := Option.map_eq_some_iff.mp cut
                cases h
              · cases cut
          | cons d front =>
              have step : cutAt? (n + 1) (c :: cs) = some (d :: front, back) ↔
                  c.utf8Size ≤ n + 1 ∧ c = d ∧
                    cutAt? (n + 1 - c.utf8Size) cs = some (front, back) := by
                rw [cutAt?]
                split
                · next fits => simp [fits, and_comm, and_assoc]
                · next wide => simp [wide]
              rw [step, ih, List.cons_append, List.cons.injEq, byteLength_cons]
              constructor
              · rintro ⟨fits, rfl, rfl, length⟩
                exact ⟨⟨rfl, rfl⟩, by omega⟩
              · rintro ⟨⟨rfl, rfl⟩, length⟩
                exact ⟨by omega, rfl, rfl, by omega⟩

/-- A text that is the scheme but for ASCII case is as long, in characters and in bytes. -/
theorem byteLength_of_scheme {name : List Char} (h : name.map Text.asciiLowerChar = scheme) :
    byteLength name = byteLength scheme ∧ name.length = scheme.length := by
  have length : name.length = scheme.length := by
    rw [← h, List.length_map]
  have plain : ∀ c ∈ scheme, c.toNat < 0x80 := by
    simp [scheme_eq]
  refine ⟨?_, length⟩
  rw [byteLength_of_ascii plain, byteLength_of_ascii, length]
  intro c hc
  have low := plain _ (h ▸ List.mem_map_of_mem hc)
  rw [Text.toNat_asciiLowerChar] at low
  split_ifs at low <;> omega

/-- The byte position behind the scheme lies between two characters wherever the scheme stands in
front of it. -/
theorem behindScheme?_eq (cs : List Char) : behindScheme? cs = some (dropScheme cs) := by
  by_cases named : (cs.take scheme.length).map Text.asciiLowerChar = scheme
  · have cut : cutAt? (byteLength scheme) cs =
        some (cs.take scheme.length, cs.drop scheme.length) := by
      rw [cutAt?_eq_some_iff, List.take_append_drop]
      exact ⟨rfl, (byteLength_of_scheme named).1⟩
    simp [behindScheme?, dropScheme, cut, named]
  · rw [dropScheme, if_neg (mt beq_iff_eq.mp named), behindScheme?]
    split
    · next front back cut =>
      refine if_neg fun first => named ?_
      have first : front.map Text.asciiLowerChar = scheme := beq_iff_eq.mp first
      obtain ⟨rfl, -⟩ := cutAt?_eq_some_iff.mp cut
      rwa [← (byteLength_of_scheme first).2, List.take_left]
    · rfl

/-- A character has only bytes of the alphabet exactly if it is one of its characters. -/
theorem all_isBase32Byte (c : Char) :
    (String.utf8EncodeChar c).all isBase32Byte = isBase32 c := by
  rw [Bool.eq_iff_iff, isBase32_iff]
  unfold String.utf8EncodeChar
  simp only [Char.toNat_val]
  split_ifs
  all_goals
    simp [isBase32Byte, UInt8.le_iff_toNat_le]
    try omega

theorem utf8Size_asciiUpperChar (c : Char) :
    (Text.asciiUpperChar c).utf8Size = c.utf8Size := by
  by_cases lower : 0x61 ≤ c.toNat ∧ c.toNat ≤ 0x7A
  · rw [utf8Size_of_ascii, utf8Size_of_ascii]
    · omega
    · rw [Text.toNat_asciiUpperChar, if_pos lower]
      omega
  · have same : Text.asciiUpperChar c = c := by
      rw [← Char.toNat_inj, Text.toNat_asciiUpperChar, if_neg lower]
    rw [same]

theorem byteLength_map_asciiUpperChar (cs : List Char) :
    byteLength (cs.map Text.asciiUpperChar) = byteLength cs := by
  rw [byteLength, byteLength, List.map_map]
  exact congrArg (List.foldr (· + ·) 0)
    (List.map_congr_left fun c _ => utf8Size_asciiUpperChar c)

/-- A text of thirty-two bytes that are all of the alphabet has as many characters. -/
theorem all_isBase32Byte_iff {cs : List Char} (bytes : byteLength cs = 32) :
    (cs.flatMap String.utf8EncodeChar).all isBase32Byte = isDigest cs := by
  rw [isDigest, List.all_flatMap, funext all_isBase32Byte]
  cases alphabet : cs.all isBase32 with
  | false => exact (Bool.and_false _).symm
  | true =>
      have plain : ∀ c ∈ cs, c.toNat < 0x80 := fun c hc => by
        have known := isBase32_iff.mp (List.all_eq_true.mp alphabet c hc)
        omega
      rw [byteLength_of_ascii plain] at bytes
      rw [bytes]
      rfl

/-- Reading by byte positions always has an outcome, the one of reading by characters. -/
theorem readBytes?_eq (value : String) : readBytes? value = some ((read value).map urn) := by
  rw [readBytes?, behindScheme?_eq, Option.map_some, read]
  set digest := dropScheme (Text.trimChars value.toList)
  refine congrArg some ?_
  rw [readDigestBytes]
  by_cases bytes : byteLength digest = 32
  · have bytes' := (byteLength_map_asciiUpperChar digest).trans bytes
    rw [if_neg (not_not.mpr bytes), if_neg (not_not.mpr bytes), all_isBase32Byte_iff bytes']
    by_cases spelt : isDigest (digest.map Text.asciiUpperChar) = true
    · rw [if_pos spelt, dif_pos spelt]
      rfl
    · rw [if_neg spelt, dif_neg spelt]
      rfl
  · rw [if_pos bytes, if_pos bytes]
    rfl

/-! ## The result -/

/-- Every text has one digest, what stands between white space at its ends and behind the scheme if
the scheme is there. The text is a content hash exactly if the digest is spelt with thirty-two
letters and digits of the alphabet, and the hash then has the digest in upper case. Any other text
is refused with the text itself, for its length exactly if the digest does not take thirty-two
bytes. Reading the text as bytes comes to the same. The canonical text of a hash gives the hash
back, and two texts are the same hash exactly if their digests agree but for ASCII case. -/
theorem texts_read_by_grammar :
    (∀ s, ∃ digest, (∀ d, Framed s d ↔ d = digest) ∧
      (∀ h, read s = .ok h ↔
        IsSpelling digest ∧ h.urn = "urn:sha1:" ++ String.ofList (digest.map Text.asciiUpperChar)) ∧
      (∀ flaw, read s = .error flaw ↔
        ¬ IsSpelling digest ∧ (flaw = .length ↔ byteLength digest ≠ 32)) ∧
      SearchResult.readHash (.ofText s) = (read s).mapError (.invalidHash s) ∧
      readBytes? s = some ((read s).map urn)) ∧
    (∀ h, read h.urn = .ok h) ∧
    ∀ s t g h d e, Framed s d → Framed t e → read s = .ok g → read t = .ok h →
      (g = h ↔ d.map Text.asciiLowerChar = e.map Text.asciiLowerChar) := by
  refine ⟨fun s => ?_, read_urn, fun s t g h d e hs ht hg hh => ?_⟩
  · have framed : Framed s (dropScheme (Text.trimChars s.toList)) := framed_iff.mpr rfl
    refine ⟨_, fun d => framed_iff, fun h => ?_, fun flaw => read_eq_error_iff framed, ?_,
      readBytes?_eq s⟩
    · rw [read_eq_ok_iff framed, urn_eq_iff]
    · exact readHash_ofText s
  · obtain ⟨-, hg⟩ := (read_eq_ok_iff hs).mp hg
    obtain ⟨-, hh⟩ := (read_eq_ok_iff ht).mp hh
    rw [← Text.map_asciiUpper_eq_iff, ← hg, ← hh]
    exact ⟨congrArg digest, fun same => urn_injective (by rw [urn, urn, same])⟩

/-- A bare digest in lower case and a URN in mixed case, with a no-break space behind it, are the
same hash. -/
theorem texts_read_by_grammar_of_two_forms :
    let lower := "abcdefghijklmnopqrstuvwxyz234567"
    let mixed := "Urn:SHA1:ABCDEFGHIJKLMnopqrstuvwxyz234567\u00A0"
    ∃ h, read lower = .ok h ∧ read mixed = .ok h := by
  intro lower mixed
  obtain ⟨h, ok⟩ : ∃ h, read lower = .ok h :=
    ⟨⟨"ABCDEFGHIJKLMNOPQRSTUVWXYZ234567".toList, by decide +kernel⟩, by decide +kernel⟩
  obtain ⟨h', ok'⟩ : ∃ h, read mixed = .ok h :=
    ⟨⟨"ABCDEFGHIJKLMNOPQRSTUVWXYZ234567".toList, by decide +kernel⟩, by decide +kernel⟩
  have same := (texts_read_by_grammar.2.2 lower mixed h h' _ _ (framed_iff.mpr rfl)
    (framed_iff.mpr rfl) ok ok').mpr (by decide +kernel)
  exact ⟨h, ok, same ▸ ok'⟩

end ContentHash

end PeerSearch
