import PeerSearch.Session

/-!
# PeerSearch.Main -- the program

Gathers what a run needs from outside, runs it and prints. A run that fails says why on the standard
error and ends with a code that is not zero.
-/

namespace PeerSearch.Program

/-! ## Texts -/

def versionText : String := "hitlist 0.2.0"

def helpText : String :=
  "Replay recorded search results through duplicate grouping, filtering and sorting\n\n" ++
    "Usage: hitlist [OPTIONS] <FILE>..."

/-- What is wrong with the arguments. -/
def argumentText : ArgumentError → String
  | .unknownArgument => "an argument is not known"
  | .missingInput => "a result file is needed"
  | .invalidValue => "an option has no value that it could have"
  | .unreadableValue => "the value of an option cannot be read"
  | .conflict => "an option is given more than once"
  | .unexpectedValue => "an option that has no value is given one"
  | .displayHelp => helpText
  | .displayVersion => versionText

/-- What is wrong with a line that is no result. -/
def recordText : Wording := fun _ e =>
  e.message?.getD "malformed"

/-- Prints why a run ended early, and tells the code to end with. -/
def fail : Failure → IO UInt32
  | .arguments .displayHelp => do IO.println helpText; return 0
  | .arguments .displayVersion => do IO.println versionText; return 0
  | .arguments e => do IO.eprintln ("error: " ++ argumentText e); return 2
  | .config => do IO.eprintln "Error: the configuration cannot be read"; return 1
  | .settings f => do IO.eprintln ("Error: " ++ f.message); return 1
  | .replay e => do IO.eprintln ("Error: " ++ e.message); return 1

/-! ## Files -/

/-- What can be read from an open file. -/
def contentOf (file : IO.FS.Stream) : IO FileContent := do
  try
    let mut contents := ByteArray.empty
    let mut more := true
    while more do
      let part ← file.read 65536
      contents := contents ++ part
      more := !part.isEmpty
    return .bytes contents.data.toList
  catch _ => return .unreadable

/-- What is found under the name of a file. -/
def readFile (path : String) : IO FileContent := do
  let opened ← (IO.FS.Handle.mk path .read).toBaseIO
  match opened with
  | .ok file => contentOf (.ofHandle file)
  | .error _ => return .missing

/-! ## Running -/

/-- The file that holds the environment variables on some systems. -/
def environmentFile : String := "/proc/self/environ"

/-- The environment variables: all of them where a file holds them, and those with the usual names
elsewhere. -/
def environment : IO (List (String × String)) := do
  match ← readFile environmentFile with
  | .bytes contents => return Settings.variablesOfBytes contents
  | _ => Session.variableNames.filterMapM fun name => return (← IO.getEnv name).map (name, ·)

/-- Does what the arguments ask for. -/
def run (args : List String) : IO UInt32 := do
  let environment ← environment
  match Session.readArguments environment args with
  | .error e => fail e
  | .ok a =>
    let files ← (Session.filesOf environment a).mapM fun path => return (path, ← readFile path)
    let readsInput := a.inputs.any (Path.same · Replay.standardInput)
    let standardInput ← if readsInput then contentOf (← IO.getStdin) else pure .missing
    let around : Surroundings := {
      environment
      files := fun path => (files.lookup path).getD .missing
      standardInput
      wording := recordText }
    match Session.ofArguments around a with
    | .error e => fail e
    | .ok s =>
      IO.print (Session.text s.summaryLines)
      match s.replayLines around with
      | .error e => fail e
      | .ok lines =>
        IO.print (Session.text lines)
        return 0

end PeerSearch.Program

def main (args : List String) : IO UInt32 :=
  PeerSearch.Program.run args
