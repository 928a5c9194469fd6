import Phrasebook.Environment
import Phrasebook.Log.Filter
import Phrasebook.Path

/-!
How events are recorded: which ones, in which form, and where they go.
-/

namespace Phrasebook.Log

structure Setup where
  level : String
  json : Bool
  pretty : Bool
  file? : Option Path
  /-- Whether the beginning and the end of activities are recorded. -/
  spans : Bool
  /-- Whether the part of the program is recorded. -/
  targets : Bool

inductive SetupError where
  | invalidFilter (filter : String) (cause : FilterFault)
  | alreadyInstalled
  deriving DecidableEq, Repr

namespace SetupError

def alreadyInstalledText : String := "a global default trace dispatcher has already been set"

def message : SetupError → String
  | invalidFilter filter cause => "Invalid log filter '" ++ filter ++ "': " ++ cause.message
  | alreadyInstalled => "Logging already initialized: " ++ alreadyInstalledText

/-- The reasons behind an error, the nearest first. -/
def causes : SetupError → List String
  | invalidFilter _ cause => cause.message :: cause.causes
  | alreadyInstalled => [alreadyInstalledText]

end SetupError

inductive Destination where
  | standardOutput
  | standardError
  | file (p : Path)
  deriving DecidableEq, Repr

/-- How an event is written down. -/
inductive Form where
  | compact
  | pretty
  | json
  deriving DecidableEq, Repr

/-- Which events are recorded, in which form, and where they go. -/
structure Recorder where
  filter : Filter
  form : Form
  destination : Destination

/-- The events that are let through, each within those spans that come about. -/
def Recorder.recorded [Patterns] (r : Recorder) (events : List Event) : List Event :=
  (events.filter r.filter.lets).map fun e => { e with spans := r.filter.spansWithin [] e.spans }

namespace Setup

def usual : Setup := ⟨"info", false, false, none, false, true⟩

/-- For work on the program itself. -/
def development : Setup := { usual with level := "debug", pretty := true, spans := true }

/-- The variable whose filter goes before that of the setup. -/
def filterVariable : String := "RUST_LOG"

/-- A filter in the environment that cannot be read is passed over. -/
def filter [Patterns] (s : Setup) (env : Environment) : Except SetupError Filter :=
  match (env filterVariable).map Filter.read with
  | some (.ok f) => .ok f
  | _ =>
    match Filter.read s.level with
    | .ok f => .ok f
    | .error cause => .error (.invalidFilter s.level cause)

def usualFileName : String := "tessera.log"

/-- The directory and the name of the file that a path stands for. A path without a name stands for
a file of the usual name. -/
def filePlace (p : Path) : Path × String :=
  let directory := match p.parent? with
    | some (c :: cs) => Path.ofComponents (c :: cs)
    | _ => ⟨"."⟩
  (directory, p.fileName?.getD usualFileName)

def filePath (p : Path) : Path := (filePlace p).1.join ⟨(filePlace p).2⟩

def form (s : Setup) : Form := if s.json then .json else if s.pretty then .pretty else .compact

/-- Only the compact form goes to standard error. -/
def destination (s : Setup) : Destination :=
  match s.file? with
  | some p => .file (filePath p)
  | none => if s.form = .compact then .standardError else .standardOutput

/-- What comes of installing a recorder: the file that is opened, and the recorder. -/
structure Installation where
  opened? : Option Path
  result : Except SetupError Recorder

/-- Installs a recorder. The file is opened even if another recorder is there already. -/
def install [Patterns] (s : Setup) (env : Environment) (taken : Bool) : Installation :=
  match s.filter env with
  | .error e => ⟨none, .error e⟩
  | .ok f =>
    ⟨s.file?.map filePath,
      if taken then .error .alreadyInstalled else .ok ⟨f, s.form, s.destination⟩⟩

end Setup
end Phrasebook.Log
