import PeerSearch.CommandLine
import PeerSearch.Replay
import PeerSearch.Report.Plain
import PeerSearch.Report.Record
import PeerSearch.Settings.Environment
import PeerSearch.Settings.File
import PeerSearch.Settings.Path

/-!
# PeerSearch.Session -- one run of the program

A run reads its arguments, brings the layers of settings together, replays the inputs and prints.
Everything it needs from outside stands in a `Surroundings`; the first stage that fails ends it.
-/

namespace PeerSearch

/-- What a run finds around it. -/
structure Surroundings where
  /-- Environment variables with their values. -/
  environment : List (String × String)
  files : String → FileContent
  standardInput : FileContent := .missing
  /-- How the reader of records puts what is wrong with a line. -/
  wording : Wording

/-- What is found under the name of an input, which may be the one of the standard input. -/
def Surroundings.input (around : Surroundings) (path : String) : FileContent :=
  if Path.same path Replay.standardInput then around.standardInput else around.files path

/-- Why a run ends early. -/
inductive Failure where
  | arguments (e : ArgumentError)
  /-- A settings file is missing or cannot be read, or a value is of the wrong kind. -/
  | config
  | settings (f : Settings.Fault)
  | replay (e : Recording.ReplayError)
  deriving DecidableEq

/-- A run that is ready to replay its inputs. -/
structure Session where
  arguments : Arguments
  settings : Settings
  deriving DecidableEq

namespace Session

/-! ## Settings -/

/-- The variable that names a settings file when the arguments name none. -/
def configVariable : String := "HITLIST_CONFIG"

/-- The usual names of the variables that count. -/
def variableNames : List String :=
  [configVariable, Settings.directoryVariable, "XDG_CONFIG_HOME", "HOME"] ++ Settings.variableNames

/-- The paths of the usual settings files that count for the arguments. -/
def usualPaths (environment : List (String × String)) (a : Arguments) : List String :=
  if a.noConfig then [] else Settings.usualPaths environment

/-- All layers that count for the arguments, the last one counting most. -/
def layers (around : Surroundings) (a : Arguments) : Option (List SettingSection) := do
  let read := Settings.readFile around.files
  let usual ← (usualPaths around.environment a).mapM fun path => (read path).optional?
  let named ← a.configFiles.mapM fun path => (read path).required?
  return usual ++ named ++ [Settings.environmentLayer around.environment]

/-- What layers of settings say together. -/
def combined (layers : List SettingSection) : SettingSection :=
  layers.foldl SettingSection.overlay []

/-! ## Stages -/

/-- An absent value is a failure. -/
def orFail {α : Type} (f : Failure) : Option α → Except Failure α
  | some a => .ok a
  | none => .error f

/-- Reads the arguments, given the environment variables. -/
def readArguments (environment : List (String × String)) (args : List String) :
    Except Failure Arguments :=
  (CommandLine.read args (environment.lookup configVariable)).mapError .arguments

/-- The files that a run with these arguments may look at. -/
def filesOf (environment : List (String × String)) (a : Arguments) : List String :=
  a.inputs ++ (usualPaths environment a ++ a.configFiles).flatMap Settings.candidates

/-- Brings the settings together for arguments. -/
def ofArguments (around : Surroundings) (a : Arguments) : Except Failure Session := do
  let raw ← orFail .config do RawSettings.ofLayers? (combined (← layers around a))
  let s ← (Settings.resolve (raw.override a.overrides)).mapError .settings
  return ⟨a, s⟩

/-- The settings in effect, if the arguments ask for them. -/
def summaryLines (s : Session) : List String :=
  if s.arguments.printConfig then s.settings.summary s.arguments.inputs else []

/-- Replays the inputs. -/
def replayLines (around : Surroundings) (s : Session) : Except Failure (List String) := do
  let replayed := Replay.run around.wording s.settings around.input s.arguments.inputs
  let reports ← replayed.mapError .replay
  return match s.arguments.output with
    | .plain => SearchReport.allLines reports
    | .json => [(SearchReport.document reports).pretty]

/-- Lines as they are printed, each with its end. -/
def text (lines : List String) : String :=
  String.join (lines.map (· ++ "\n"))

end Session

end PeerSearch
