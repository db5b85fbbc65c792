import PeerSearch.Settings.Raw
import PeerSearch.Text.Split

/-!
# PeerSearch.CommandLine -- reading the arguments of the program

Arguments are read from left to right. An option takes its value from the same argument or from the
next one; a value from the next argument is checked only when something else follows or the
arguments end, so that a fault found before that counts first.
-/

namespace PeerSearch

/-! ## Parameters -/

/-- What an argument can give. -/
inductive Parameter where
  | input
  | config
  | noConfig
  | sort
  | descending
  | group
  | realTimeSort
  | junk
  | spamThreshold
  | maxSearches
  | extensions
  | vendor
  | limit
  | printConfig
  | verbose
  | output
  | help
  | version
  deriving DecidableEq, Repr

namespace Parameter

/-- The parameters with a long name. -/
def longNames : List (String × Parameter) :=
  [("config", config), ("no-config", noConfig), ("sort", sort), ("descending", descending),
    ("group", group), ("real-time-sort", realTimeSort), ("junk", junk),
    ("spam-threshold", spamThreshold), ("max-searches", maxSearches), ("extensions", extensions),
    ("vendor", vendor), ("limit", limit), ("print-config", printConfig), ("verbose", verbose),
    ("output", output), ("help", help), ("version", version)]

/-- The parameters with a letter. -/
def letters : List (Char × Parameter) :=
  [('c', config), ('n', noConfig), ('s', sort), ('g', group), ('j', junk), ('e', extensions),
    ('l', limit), ('p', printConfig), ('v', verbose), ('o', output), ('h', help), ('V', version)]

/-- Whether the parameter has a value. -/
def takesValue : Parameter → Bool
  | noConfig | printConfig | verbose | help | version => false
  | _ => true

/-- Whether the parameter may be given more than once. -/
def isRepeatable : Parameter → Bool
  | input | config | extensions | verbose => true
  | _ => false

end Parameter

/-! ## Results -/

/-- How the result is printed. -/
inductive OutputFormat where
  | plain
  | json
  deriving DecidableEq, Repr

/-- What the arguments say. -/
structure Arguments where
  /-- Result files to replay. -/
  inputs : List String := []
  /-- Settings files to read besides the usual ones. -/
  configFiles : List String := []
  /-- Whether the usual settings files are left out. -/
  noConfig : Bool := false
  overrides : Overrides := {}
  printConfig : Bool := false
  /-- How often more detail in the log was asked for. -/
  verbosity : Nat := 0
  output : OutputFormat := .plain
  deriving DecidableEq

/-- Why the arguments cannot be used, or what they ask for instead of a run. -/
inductive ArgumentError where
  | unknownArgument
  | missingInput
  /-- A value is missing, or is none of those that are possible. -/
  | invalidValue
  /-- A value cannot be read. -/
  | unreadableValue
  /-- A parameter was given twice. -/
  | conflict
  /-- A flag was given a value. -/
  | unexpectedValue
  | displayHelp
  | displayVersion
  deriving DecidableEq, Repr

namespace CommandLine

/-! ## Values -/

/-- A value or an error. -/
def readOr {α : Type} (e : ArgumentError) : Option α → Except ArgumentError α
  | some a => .ok a
  | none => .error e

/-- The name of a file; it may not be empty. -/
def fileName (s : String) : Except ArgumentError String :=
  if s.isEmpty then .error .invalidValue else .ok s

/-- A truth value, as one of several words or digits in any case. -/
def truth (s : String) : Except ArgumentError Bool :=
  let word := Text.lower s
  if ["y", "yes", "t", "true", "on", "1"].contains word then .ok true
  else if ["n", "no", "f", "false", "off", "0"].contains word then .ok false
  else .error .unreadableValue

def count (s : String) : Except ArgumentError Nat :=
  readOr .unreadableValue (SettingValue.natOfText? s)

def single (s : String) : Except ArgumentError Binary32 :=
  readOr .unreadableValue ((Number.read? s).map Number.Reading.toSingle)

def outputFormat (s : String) : Except ArgumentError OutputFormat :=
  match s with
  | "plain" => .ok .plain
  | "json" => .ok .json
  | _ => .error .invalidValue

/-- The largest number of verbose flags that is counted. -/
def maxVerbosity : Nat := 255

/-- The arguments with the values of a parameter. -/
def store (a : Arguments) (p : Parameter) (values : List String) :
    Except ArgumentError Arguments := do
  let o := a.overrides
  let value := values.headD ""
  match p with
  | .input => return { a with inputs := a.inputs ++ (← values.mapM fileName) }
  | .config => return { a with configFiles := a.configFiles ++ (← values.mapM fileName) }
  | .noConfig => return { a with noConfig := true }
  | .sort =>
    let key ← readOr .unreadableValue (SortKey.read? value)
    return { a with overrides := { o with sort := some key } }
  | .descending => return { a with overrides := { o with descending := some (← truth value) } }
  | .group => return { a with overrides := { o with groupResults := some (← truth value) } }
  | .realTimeSort =>
    return { a with overrides := { o with realTimeSort := some (← truth value) } }
  | .junk =>
    let policy ← readOr .unreadableValue (JunkPolicy.read? value)
    return { a with overrides := { o with junkPolicy := some policy } }
  | .spamThreshold =>
    return { a with overrides := { o with spamThreshold := some (← single value) } }
  | .maxSearches => return { a with overrides := { o with maxSearches := some (← count value) } }
  | .extensions =>
    let extensions := o.extensions.getD [] ++ values.flatMap (Text.splitString ',')
    return { a with overrides := { o with extensions := some extensions } }
  | .vendor => return { a with overrides := { o with vendor := some value } }
  | .limit => return { a with overrides := { o with limit := some (← count value) } }
  | .printConfig => return { a with printConfig := true }
  | .verbose => return { a with verbosity := min (a.verbosity + 1) maxVerbosity }
  | .output => return { a with output := ← outputFormat value }
  | .help => throw .displayHelp
  | .version => throw .displayVersion

/-! ## Reading -/

/-- A parameter whose values are not complete or not checked yet. -/
structure Pending where
  parameter : Parameter
  values : List String
  deriving DecidableEq, Repr

/-- What has been read. -/
structure State where
  arguments : Arguments
  /-- Parameters that have been stored. -/
  seen : List Parameter
  pending : Option Pending
  deriving DecidableEq

/-- Stores a parameter with all its values. -/
def accept (s : State) (p : Parameter) (values : List String) : Except ArgumentError State :=
  if p.takesValue && values.isEmpty then .error .invalidValue
  else if !p.isRepeatable && s.seen.contains p then .error .conflict
  else (store s.arguments p values).map fun a => { s with arguments := a, seen := p :: s.seen }

/-- Stores the parameter that is pending, if there is one. -/
def settle (s : State) : Except ArgumentError State :=
  match s.pending with
  | none => .ok s
  | some p => accept { s with pending := none } p.parameter p.values

/-- Stores what is pending and then a parameter with its values. -/
def react (s : State) (p : Parameter) (values : List String) : Except ArgumentError State := do
  accept (← settle s) p values

/-- Reads a parameter with the value attached to it, or leaves it pending. -/
def option (s : State) (p : Parameter) (attached : Option String) : Except ArgumentError State := do
  match attached with
  | some value => react s p [value]
  | none => return { ← settle s with pending := some ⟨p, []⟩ }

/-- Reads an argument that is an input. -/
def input (s : State) (value : String) : Except ArgumentError State := do
  match s.pending with
  | some ⟨.input, values⟩ => return { s with pending := some ⟨.input, values ++ [value]⟩ }
  | _ => return { ← settle s with pending := some ⟨.input, [value]⟩ }

/-- The parameter that waits for its value in the next argument. -/
def waiting (s : State) : Option Parameter :=
  match s.pending with
  | some ⟨p, []⟩ => some p
  | _ => none

/-- The parts of an argument in front of and behind the first equals sign. -/
def splitAtEquals : List Char → List Char × Option (List Char)
  | [] => ([], none)
  | '=' :: rest => ([], some rest)
  | c :: rest =>
    let (name, value) := splitAtEquals rest
    (c :: name, value)

/-- Reads an argument that starts with two hyphens, given without them. -/
def long (s : State) (cs : List Char) : Except ArgumentError State :=
  let (name, value) := splitAtEquals cs
  match Parameter.longNames.lookup (String.ofList name) with
  | none => .error .unknownArgument
  | some p =>
    if p.takesValue then option s p (value.map String.ofList)
    else if value.isSome then .error .unexpectedValue
    else react s p []

/-- The value attached to a letter: what follows it, without an equals sign in front. -/
def attached : List Char → Option String
  | [] => none
  | '=' :: rest => some (String.ofList rest)
  | cs => some (String.ofList cs)

/-- Reads letters that follow a hyphen; the first one with a value takes the rest for it. -/
def short (s : State) : List Char → Except ArgumentError State
  | [] => .ok s
  | c :: rest =>
    match Parameter.letters.lookup c with
    | none => .error .unknownArgument
    | some p =>
      if p.takesValue then option s p (attached rest)
      else
        match react s p [] with
        | .ok s => short s rest
        | .error e => .error e

/-- Reads an argument that starts with no hyphen: the value that a parameter waits for, or an
input. -/
def plain (s : State) (value : String) : Except ArgumentError State :=
  match waiting s with
  | some p => .ok { s with pending := some ⟨p, [value]⟩ }
  | none => input s value

/-- Reads arguments; after one that is two hyphens alone, all that follow are inputs. -/
def readAll (s : State) : List String → Except ArgumentError State
  | [] => settle s
  | arg :: rest =>
    match arg.toList with
    | ['-', '-'] => do settle (← rest.foldlM input s)
    | '-' :: '-' :: name => do readAll (← long s name) rest
    | '-' :: c :: letters => do readAll (← short s (c :: letters)) rest
    | _ => do readAll (← plain s arg) rest

/-- Reads the arguments of the program. Without settings files among them, `configFile` names one if
it is given. -/
def read (args : List String) (configFile : Option String) : Except ArgumentError Arguments := do
  let a := (← readAll ⟨{}, [], none⟩ args).arguments
  let a ← match configFile with
    | some file => if a.configFiles.isEmpty then store a .config [file] else pure a
    | none => pure a
  if a.inputs.isEmpty then throw .missingInput else return a

end CommandLine

end PeerSearch
