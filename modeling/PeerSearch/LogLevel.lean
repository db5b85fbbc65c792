/-!
# PeerSearch.LogLevel -- how much is logged

Warnings are always logged; each repetition of the verbose flag adds a level of detail.
-/

namespace PeerSearch

/-- The least grave kind of message that is logged. -/
inductive LogLevel where
  | warn
  | info
  | debug
  | trace
  deriving DecidableEq, Repr

namespace LogLevel

/-- The level for a number of verbose flags. -/
def ofVerbosity : Nat → LogLevel
  | 0 => warn
  | 1 => info
  | 2 => debug
  | _ => trace

def label : LogLevel → String
  | warn => "WARN"
  | info => "INFO"
  | debug => "DEBUG"
  | trace => "TRACE"

end LogLevel

end PeerSearch
