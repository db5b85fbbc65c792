import PeerSearch.Group

/-!
# PeerSearch.Junk -- what counts as junk and what is done with it

A group is junk when its spam rating reaches a threshold, unless it is sponsored; a verdict of the
user decides before everything else.
-/

namespace PeerSearch

/-! ## Policies -/

/-- What a table does with junk. -/
inductive JunkPolicy where
  /-- Junk is kept out of the visible rows. -/
  | hide
  /-- Junk is shown below everything else. -/
  | sink
  /-- Junk is treated like any other group. -/
  | ignore
  deriving DecidableEq, Repr

namespace JunkPolicy

def label : JunkPolicy → String
  | hide => "hide"
  | sink => "sink"
  | ignore => "ignore"

/-- The policy of that label. -/
def ofLabel? (label : String) : Option JunkPolicy :=
  [hide, sink, ignore].find? fun p => p.label == label

/-- Reads a policy that a user wrote: a label in any ASCII case, with white space around it, or
`show`, another word for `ignore`. -/
def read? (value : String) : Option JunkPolicy :=
  let word := Text.asciiLower (Text.trim value)
  if word == "show" then some ignore else ofLabel? word

/-- The complaint about a text that is no policy. -/
def unknownMessage (value : String) : String :=
  "unknown junk policy '" ++ value ++ "'"

end JunkPolicy

/-! ## The classifier -/

/-- The threshold used unless another is set: nine tenths. -/
def defaultSpamThreshold : Binary32 := ⟨1063675494⟩

/-- Takes groups for junk whose rating reaches the threshold. -/
structure JunkFilter where
  threshold : Binary32
  deriving DecidableEq

namespace JunkFilter

/-- The classifier for a threshold. One outside the unit interval is moved to its nearer end, and a
NaN gives the default. -/
def ofThreshold (threshold : Binary32) : JunkFilter :=
  ⟨if threshold.isNaN then defaultSpamThreshold else threshold.clamp .zero .one⟩

/-- Whether two classifiers have equal thresholds. -/
def same (a b : JunkFilter) : Bool :=
  a.threshold.sameValue b.threshold

/-- Whether a group is junk. -/
def isJunk (f : JunkFilter) (g : Group) : Bool :=
  match g.userJunk with
  | some verdict => verdict
  | none => !g.isPromoted && f.threshold.le g.spamScore

/-- Lets through what is not junk. -/
def allows (f : JunkFilter) (g : Group) : Bool :=
  !f.isJunk g

end JunkFilter

end PeerSearch
