import PeerSearch.ContentHash
import PeerSearch.Document
import PeerSearch.Number.Binary32
import PeerSearch.SpeedClass

/-!
# PeerSearch.SearchResult -- one answer to a search

A host answers a query with the name and size of a file and whatever else it knows about it. A
result is fit for a table when its name is not blank and its spam score lies between zero and one.
-/

namespace PeerSearch

/-! ## Ratings and origins -/

/-- Star rating that the network layer gives a result. -/
inductive Quality where
  | poor
  | fair
  | good
  | excellent
  deriving DecidableEq, Repr

namespace Quality

def name : Quality → String
  | poor => "poor"
  | fair => "fair"
  | good => "good"
  | excellent => "excellent"

/-- The rating of that name. -/
def ofName? (name : String) : Option Quality :=
  [poor, fair, good, excellent].find? fun q => q.name == name

/-- Number of stars above the lowest rating. -/
def rank : Quality → Nat
  | poor => 0
  | fair => 1
  | good => 2
  | excellent => 3

/-- The better of two ratings. -/
def better (p q : Quality) : Quality :=
  if p.rank < q.rank then q else p

end Quality

/-- Where a result came from. -/
inductive ResultKind where
  | standard
  /-- Found on the local network by a multicast query. -/
  | multicast
  /-- Put in by a sponsored catalogue. -/
  | promoted
  deriving DecidableEq, Repr

namespace ResultKind

def name : ResultKind → String
  | standard => "standard"
  | multicast => "multicast"
  | promoted => "promoted"

/-- The kind of that name. -/
def ofName? (name : String) : Option ResultKind :=
  [standard, multicast, promoted].find? fun k => k.name == name

end ResultKind

/-! ## Results -/

/-- One answer to a search, as a single host reports it. -/
structure SearchResult where
  fileName : String
  /-- Size of the file in bytes. -/
  size : Nat
  hash : Option ContentHash := none
  /-- Advertised upload speed in kbit/s. -/
  speed : Nat := 0
  measuredSpeed : Bool := false
  quality : Quality := .poor
  kind : ResultKind := .standard
  secure : Bool := false
  vendor : String := ""
  spamScore : Binary32 := .zero
  /-- Creation time in seconds since 1970. -/
  createdAt : Option Int := none
  /-- Address of the host that answered. -/
  source : Option String := none
  document : Option Document := none
  deriving DecidableEq

namespace SearchResult

/-! ## File names -/

/-- The characters in front of the last dot and those behind it, if there is a dot. -/
def atLastDot? : List Char → Option (List Char × List Char)
  | [] => none
  | c :: rest =>
    match atLastDot? rest with
    | some (front, back) => some (c :: front, back)
    | none => if c == '.' then some ([], rest) else none

/-- The text after the last dot of the file name, or nothing. -/
def extension (r : SearchResult) : String :=
  match atLastDot? r.fileName.toList with
  | some (_, back) => String.ofList back
  | none => ""

/-- The file name without its extension and the dot in front of it. -/
def stem (r : SearchResult) : String :=
  match atLastDot? r.fileName.toList with
  | some (front, _) => String.ofList front
  | none => r.fileName

/-! ## Derived values -/

/-- The creation time, unless it is one of the placeholders up to zero that some hosts send. -/
def creationTime (r : SearchResult) : Option Int :=
  r.createdAt.filter (0 < ·)

def speedClass (r : SearchResult) : SpeedClass :=
  .ofKbps r.speed

/-! ## Validation -/

/-- Why a result is refused. -/
inductive Refusal where
  | emptyFileName
  | invalidSpamScore (name : String) (score : Binary32)
  deriving DecidableEq

/-- The first reason to refuse the result, if there is one. -/
def refusal? (r : SearchResult) : Option Refusal :=
  if Text.isBlankText r.fileName then some .emptyFileName
  else if !r.spamScore.isFinite || !r.spamScore.inUnitInterval then
    some (.invalidSpamScore r.fileName r.spamScore)
  else none

/-- Whether the result is fit for a table. -/
def isValid (r : SearchResult) : Bool :=
  r.refusal?.isNone

/-- The reason in words. -/
def Refusal.message : Refusal → String
  | .emptyFileName => "search result has an empty file name"
  | .invalidSpamScore name score =>
    "spam score " ++ score.text ++ " for '" ++ name ++ "' is outside 0.0..=1.0"

end SearchResult

/-- The complaint about a text that was to be a content hash. -/
def ContentHash.Flaw.message (flaw : ContentHash.Flaw) (value : String) : String :=
  "invalid content hash '" ++ value ++ "': " ++ flaw.reason

end PeerSearch
