import PeerSearch.FileContent
import PeerSearch.SearchResult.Record
import PeerSearch.Text.Split

/-!
# PeerSearch.Recording -- recorded results of a search

A recording is a file with one result to a line. Every line is one of three things: blank and passed
over, a result, or bad and reported by its number. What is wrong with a bad line is said in the
words of the reader of records, which are a parameter. A line that is no text makes the whole file
unreadable.
-/

namespace PeerSearch

/-! ## Lines -/

/-- A finished line without the carriage return at its end. -/
def withoutReturn (line : List UInt8) : List UInt8 :=
  if line.getLast? == some 0x0D then line.dropLast else line

/-- Lines of a file: a line feed finishes a line, perhaps with a carriage return in front of it. What
follows the last one is a line too, unless nothing does. -/
def linesOf (contents : List UInt8) : List (List UInt8) :=
  let parts := Text.split 0x0A contents
  parts.dropLast.map withoutReturn ++ parts.getLast?.toList.filter (!·.isEmpty)

/-- The text of a line; `none` when it is not UTF-8. -/
def lineText? (line : List UInt8) : Option String :=
  String.fromUTF8? ⟨line.toArray⟩

/-! ## Bad lines -/

/-- What the reader of records says of a line that is none, given what is wrong with it. -/
abbrev Wording := String → SearchResult.RecordError → String

/-- A line that is not a result. -/
structure BadLine where
  number : Nat
  line : String
  error : SearchResult.RecordError
  deriving DecidableEq, Repr

/-- The report of a bad line. -/
def BadLine.text (wording : Wording) (l : BadLine) : String :=
  "line " ++ toString l.number ++ ": " ++ wording l.line l.error

/-! ## Recordings -/

/-- The results of a file and its bad lines, both in the order of the file. -/
structure Recording where
  results : List SearchResult
  badLines : List BadLine
  deriving DecidableEq

namespace Recording

/-- The recording with a line in front of it. -/
def withLine (number : Nat) (text : String) (r : Recording) : Recording :=
  if Text.isBlankText text then r
  else
    match SearchResult.readLine text with
    | .ok result => { r with results := result :: r.results }
    | .error e => { r with badLines := ⟨number, text, e⟩ :: r.badLines }

/-- Reads lines of which the first one has the given number; the error is the number of the first
one that is no text. -/
def ofLines (number : Nat) : List (List UInt8) → Except Nat Recording
  | [] => .ok ⟨[], []⟩
  | line :: rest =>
    match lineText? line with
    | none => .error number
    | some text => (ofLines (number + 1) rest).map (withLine number text)

/-! ## Opening a file -/

/-- Why a recording cannot be replayed. -/
inductive ReplayError where
  | cannotOpen (path : String)
  | cannotRead (line : Nat) (path : String)
  deriving DecidableEq, Repr

/-- The error in words. -/
def ReplayError.message : ReplayError → String
  | cannotOpen path => "failed to open result file " ++ path
  | cannotRead line path => "failed to read line " ++ toString line ++ " of " ++ path

/-- The recording in a file. -/
def ofFile (path : String) : FileContent → Except ReplayError Recording
  | .missing => .error (.cannotOpen path)
  | .unreadable => .error (.cannotRead 1 path)
  | .bytes contents => (ofLines 1 (linesOf contents)).mapError fun line => .cannotRead line path

end Recording

end PeerSearch
