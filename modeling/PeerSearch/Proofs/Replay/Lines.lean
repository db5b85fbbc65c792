import Mathlib
import PeerSearch.Replay.Threads

/-!
# PeerSearch.Proofs.Replay.Lines -- what the lines of a file come to

`HasLines` is the grammar of a file of texts: which bytes stand behind each of its lines. Such a file
is read as a recording: its results, its bad lines and its blank lines share the lines between them.
The producer of the file posts the same results in the same order, and says that it has finished
after the last line only.
-/

namespace PeerSearch

/-! ## Parts between separators -/

namespace Text

variable {α : Type} [BEq α] {separator : α} {l : List α}

theorem splitFrom_ne_nil (part l : List α) : splitFrom separator part l ≠ [] := by
  induction l generalizing part with
  | nil => exact List.cons_ne_nil part []
  | cons a rest ih =>
      rw [splitFrom]
      split
      · exact List.cons_ne_nil part _
      · exact ih (part ++ [a])

variable [LawfulBEq α]

theorem splitFrom_of_not_mem (one : separator ∉ l) (part : List α) :
    splitFrom separator part l = [part ++ l] := by
  induction l generalizing part with
  | nil => rw [splitFrom, List.append_nil]
  | cons a rest ih =>
      rw [List.mem_cons, not_or] at one
      have other : ¬ (a == separator) = true := by simpa using Ne.symm one.1
      rw [splitFrom, if_neg other, ih one.2, ← List.append_cons]

theorem splitFrom_append_cons (one : separator ∉ l) (part rest : List α) :
    splitFrom separator part (l ++ separator :: rest) =
      (part ++ l) :: splitFrom separator [] rest := by
  induction l generalizing part with
  | nil => rw [List.nil_append, splitFrom, if_pos (beq_self_eq_true separator), List.append_nil]
  | cons a l ih =>
      rw [List.mem_cons, not_or] at one
      have other : ¬ (a == separator) = true := by simpa using Ne.symm one.1
      rw [List.cons_append, splitFrom, if_neg other, ih one.2, ← List.append_cons]

end Text

namespace Replay

/-! ## Lines of a file -/

/-- The bytes of a text. -/
def utf8 (text : String) : List UInt8 :=
  text.toByteArray.data.toList

/-- A file with these lines. A line feed finishes a line, and a carriage return in front of it is not
part of the line; a last line that is not empty may do without. -/
inductive HasLines : List UInt8 → List String → Prop
  | empty : HasLines [] []
  | unfinished {text : String} (filled : utf8 text ≠ []) (one : 0x0A ∉ utf8 text) :
      HasLines (utf8 text) [text]
  | finished {text : String} {rest : List UInt8} {texts : List String} (one : 0x0A ∉ utf8 text)
      (plain : (utf8 text).getLast? ≠ some 0x0D) (more : HasLines rest texts) :
      HasLines (utf8 text ++ 0x0A :: rest) (text :: texts)
  | returned {text : String} {rest : List UInt8} {texts : List String} (one : 0x0A ∉ utf8 text)
      (more : HasLines rest texts) : HasLines (utf8 text ++ 0x0D :: 0x0A :: rest) (text :: texts)

theorem lineText?_eq_some_iff {line : List UInt8} {text : String} :
    lineText? line = some text ↔ line = utf8 text := by
  unfold lineText? String.fromUTF8?
  constructor
  · intro h
    split at h
    · rw [← Option.some.inj h]
      rfl
    · cases h
  · rintro rfl
    exact dif_pos text.isValidUTF8

theorem linesOf_of_not_mem {line : List UInt8} (one : 0x0A ∉ line) :
    linesOf line = [line].filter (!·.isEmpty) := by
  rw [linesOf, Text.split, Text.splitFrom_of_not_mem one]
  rfl

theorem linesOf_append_cons {line : List UInt8} (one : 0x0A ∉ line) (rest : List UInt8) :
    linesOf (line ++ 0x0A :: rest) = withoutReturn line :: linesOf rest := by
  have more : Text.splitFrom 0x0A [] rest ≠ [] := Text.splitFrom_ne_nil [] rest
  rw [linesOf, linesOf, Text.split, Text.split, Text.splitFrom_append_cons one,
    List.dropLast_cons_of_ne_nil more, List.getLast?_cons_of_ne_nil more, List.map_cons,
    List.cons_append, List.nil_append]

theorem withoutReturn_of_plain {line : List UInt8} (plain : line.getLast? ≠ some 0x0D) :
    withoutReturn line = line :=
  if_neg (by simpa using plain)

theorem withoutReturn_concat (line : List UInt8) : withoutReturn (line ++ [0x0D]) = line := by
  rw [withoutReturn, if_pos (by simp), List.dropLast_concat]

/-- The lines of a file are texts just when it has those lines. -/
theorem hasLines_iff {contents : List UInt8} {texts : List String} :
    HasLines contents texts ↔ (linesOf contents).map lineText? = texts.map some := by
  constructor
  · intro h
    induction h with
    | empty => rfl
    | @unfinished text filled one =>
        have kept : (!(utf8 text).isEmpty) = true := by simpa using filled
        rw [linesOf_of_not_mem one, List.filter_cons, if_pos kept, List.filter_nil]
        exact congrArg (· :: []) (lineText?_eq_some_iff.mpr rfl)
    | finished one plain more ih =>
        rw [linesOf_append_cons one, withoutReturn_of_plain plain, List.map_cons, ih,
          lineText?_eq_some_iff.mpr rfl, List.map_cons]
    | @returned text _ _ one more ih =>
        have both : 0x0A ∉ utf8 text ++ [0x0D] := by simpa using one
        rw [List.append_cons, linesOf_append_cons both, withoutReturn_concat, List.map_cons, ih,
          lineText?_eq_some_iff.mpr rfl, List.map_cons]
  · -- By induction on the length, since a line takes many bytes off the file.
    intro h
    induction hn : contents.length using Nat.strong_induction_on generalizing contents texts with
    | _ n ih =>
      by_cases feed : 0x0A ∈ contents
      · obtain ⟨line, rest, rfl, one⟩ := List.eq_append_cons_of_mem feed
        rw [linesOf_append_cons one, List.map_cons] at h
        cases texts with
        | nil => cases h
        | cons text texts =>
            obtain ⟨first, others⟩ := List.cons.inj h
            have more := ih rest.length (by simp [← hn]; omega) others rfl
            have read := lineText?_eq_some_iff.mp first
            -- A carriage return at the end is not part of the text.
            by_cases ended : line.getLast? = some 0x0D
            · have parts := List.dropLast_append_getLast? 0x0D ended
              rw [← parts, withoutReturn_concat] at read
              rw [← parts, read, ← List.append_cons]
              exact .returned (fun mem => one ((List.dropLast_sublist line).subset (read ▸ mem))) more
            · rw [withoutReturn_of_plain ended] at read
              rw [read] at one ended ⊢
              exact .finished one ended more
      · rw [linesOf_of_not_mem feed] at h
        cases contents with
        | nil =>
            obtain rfl := List.map_eq_nil_iff.mp h.symm
            exact .empty
        | cons b bytes =>
            obtain ⟨text, rfl, first⟩ := List.map_eq_singleton_iff.mp h.symm
            have read := lineText?_eq_some_iff.mp first.symm
            rw [read] at feed ⊢
            exact .unfinished (read ▸ List.cons_ne_nil b bytes) feed

/-! ## Lines of a recording -/

/-- The bad line that a numbered line is. -/
def badLine? (line : String × Nat) : Option BadLine :=
  if Text.isBlankText line.1 then none
  else
    match SearchResult.readLine line.1 with
    | .ok _ => none
    | .error e => some ⟨line.2, line.1, e⟩

/-- The results in some lines. -/
def resultsIn (texts : List String) : List SearchResult :=
  texts.filterMap lineResult?

/-- The bad ones of some lines, of which the first one has the given number. -/
def badLinesIn (number : Nat) (texts : List String) : List BadLine :=
  (texts.zipIdx number).filterMap badLine?

/-- A file whose lines are these texts. -/
def Readable (content : FileContent) (texts : List String) : Prop :=
  ∃ contents, content = .bytes contents ∧ HasLines contents texts

/-- A line is blank, a result or bad. -/
theorem withLine_eq (number : Nat) (text : String) (r : Recording) :
    r.withLine number text =
      ⟨(lineResult? text).toList ++ r.results, (badLine? (text, number)).toList ++ r.badLines⟩ := by
  unfold Recording.withLine lineResult? badLine?
  split
  · rfl
  · cases SearchResult.readLine text <;> rfl

theorem badLinesIn_cons (number : Nat) (text : String) (texts : List String) :
    badLinesIn number (text :: texts) =
      (badLine? (text, number)).toList ++ badLinesIn (number + 1) texts := by
  rw [badLinesIn, List.zipIdx_cons, List.filterMap_cons]
  cases badLine? (text, number) <;> rfl

theorem resultsIn_cons (text : String) (texts : List String) :
    resultsIn (text :: texts) = (lineResult? text).toList ++ resultsIn texts := by
  rw [resultsIn, List.filterMap_cons]
  cases lineResult? text <;> rfl

/-- Lines that are read as a recording are all texts, and the recording is what they come to. -/
theorem ofLines_eq_ok {number : Nat} {lines : List (List UInt8)} {r : Recording}
    (h : Recording.ofLines number lines = .ok r) :
    ∃ texts, lines.map lineText? = texts.map some ∧
      r = ⟨resultsIn texts, badLinesIn number texts⟩ := by
  induction lines generalizing number r with
  | nil => exact ⟨[], rfl, (Except.ok.inj h).symm⟩
  | cons line rest ih =>
      rw [Recording.ofLines] at h
      cases hline : lineText? line with
      | none =>
          rw [hline] at h
          cases h
      | some text =>
          rw [hline] at h
          cases hrest : Recording.ofLines (number + 1) rest with
          | error e =>
              rw [hrest] at h
              cases h
          | ok r' =>
              rw [hrest] at h
              obtain rfl := Except.ok.inj h
              obtain ⟨texts, all, rfl⟩ := ih hrest
              refine ⟨text :: texts, by rw [List.map_cons, hline, all, List.map_cons], ?_⟩
              rw [withLine_eq, resultsIn_cons, badLinesIn_cons]

theorem ofFile_eq_ok {path : String} {content : FileContent} {r : Recording}
    (h : Recording.ofFile path content = .ok r) :
    ∃ texts, Readable content texts ∧ r = ⟨resultsIn texts, badLinesIn 1 texts⟩ := by
  cases content with
  | missing | unreadable => cases h
  | bytes contents =>
      rw [Recording.ofFile] at h
      cases hlines : Recording.ofLines 1 (linesOf contents) with
      | error e =>
          rw [hlines] at h
          cases h
      | ok r' =>
          rw [hlines] at h
          obtain rfl := Except.ok.inj h
          obtain ⟨texts, all, hr⟩ := ofLines_eq_ok hlines
          exact ⟨texts, ⟨contents, rfl, hasLines_iff.mpr all⟩, hr⟩

/-- Every line that is not blank is a result or bad. -/
theorem lines_shared (number : Nat) (texts : List String) :
    (resultsIn texts).length + (badLinesIn number texts).length =
      (texts.filter fun text => !Text.isBlankText text).length := by
  induction texts generalizing number with
  | nil => rfl
  | cons text rest ih =>
      have one : (lineResult? text).toList.length + (badLine? (text, number)).toList.length =
          if Text.isBlankText text then 0 else 1 := by
        unfold lineResult? badLine?
        split
        · rfl
        · cases SearchResult.readLine text <;> rfl
      have counted : ((text :: rest).filter fun text => !Text.isBlankText text).length =
          (if Text.isBlankText text then 0 else 1) +
            (rest.filter fun text => !Text.isBlankText text).length := by
        rw [List.filter_cons]
        cases Text.isBlankText text with
        | true => simp
        | false => simp [Nat.add_comm]
      have later := ih (number + 1)
      rw [counted, ← one, resultsIn_cons, badLinesIn_cons, List.length_append, List.length_append]
      omega

/-! ## What a producer posts -/

theorem linePosts_unreadable {id : SearchId} {line : List UInt8} {rest : List (List UInt8)}
    (h : lineText? line = none) : linePosts id (line :: rest) = [] := by
  rw [linePosts, h]

theorem linePosts_cons {id : SearchId} {line : List UInt8} {rest : List (List UInt8)}
    {text : String} (h : lineText? line = some text) :
    linePosts id (line :: rest) =
      ((lineResult? text).map (.result id)).toList ++ linePosts id rest := by
  rw [linePosts, h]

theorem linePosts_search {id : SearchId} {lines : List (List UInt8)} {p : Post}
    (hp : p ∈ linePosts id lines) : p.search = id := by
  induction lines with
  | nil =>
      rw [List.mem_singleton.mp hp]
      rfl
  | cons line rest ih =>
      cases hline : lineText? line with
      | none =>
          rw [linePosts_unreadable hline] at hp
          cases hp
      | some text =>
          rw [linePosts_cons hline] at hp
          rcases List.mem_append.mp hp with hp | hp
          · obtain ⟨r, -, rfl⟩ := Option.map_eq_some_iff.mp (Option.mem_toList.mp hp)
            rfl
          · exact ih hp

/-- All that is posted for a file is about its search. -/
theorem filePosts_search {id : SearchId} {content : FileContent} {p : Post}
    (hp : p ∈ filePosts id content) : p.search = id := by
  cases content with
  | missing | unreadable => cases hp
  | bytes contents => exact linePosts_search hp

/-- Lines that are all texts are posted with the end of the search behind them. -/
theorem linePosts_of_texts (id : SearchId) {lines : List (List UInt8)} {texts : List String}
    (all : lines.map lineText? = texts.map some) :
    linePosts id lines = (resultsIn texts).map (.result id) ++ [.finished id] := by
  induction lines generalizing texts with
  | nil =>
      obtain rfl := List.map_eq_nil_iff.mp all.symm
      rfl
  | cons line rest ih =>
      cases texts with
      | nil => cases all
      | cons text texts =>
          obtain ⟨hline, hrest⟩ := List.cons.inj all
          rw [linePosts_cons hline, ih hrest, resultsIn_cons, List.map_append, List.append_assoc]
          cases lineResult? text <;> rfl

theorem filePosts_of_readable (id : SearchId) {content : FileContent} {texts : List String}
    (h : Readable content texts) :
    filePosts id content = (resultsIn texts).map (.result id) ++ [.finished id] := by
  obtain ⟨contents, rfl, lines⟩ := h
  exact linePosts_of_texts id (hasLines_iff.mp lines)

/-- Nothing follows the end of a search. -/
theorem linePosts_finished {id : SearchId} {lines : List (List UInt8)} {before after : List Post}
    (h : before ++ after = linePosts id lines) (done : .finished id ∈ before) : after = [] := by
  induction lines generalizing before with
  | nil =>
      rw [linePosts, List.append_eq_singleton_iff] at h
      rcases h with ⟨rfl, -⟩ | ⟨-, rfl⟩
      · cases done
      · rfl
  | cons line rest ih =>
      cases hline : lineText? line with
      | none =>
          rw [linePosts_unreadable hline] at h
          exact (List.append_eq_nil_iff.mp h).2
      | some text =>
          rw [linePosts_cons hline] at h
          cases hresult : lineResult? text with
          | none =>
              rw [hresult] at h
              exact ih h done
          | some r =>
              rw [hresult] at h
              cases before with
              | nil => cases done
              | cons p before =>
                  obtain ⟨rfl, later⟩ := List.cons.inj h
                  exact ih later ((List.mem_cons.mp done).resolve_left nofun)

theorem filePosts_finished {id : SearchId} {content : FileContent} {before after : List Post}
    (h : before ++ after = filePosts id content) (done : .finished id ∈ before) : after = [] := by
  cases content with
  | missing | unreadable => exact (List.append_eq_nil_iff.mp h).2
  | bytes contents => exact linePosts_finished h done

end Replay

end PeerSearch
