import Phrasebook.Command.Line
import Phrasebook.Command.Run
import Phrasebook.Files.Opening
import Phrasebook.Log.Line
import Phrasebook.Text.Report

/-!
One run of the program: from the command line, the environment and the files that it finds to what
it prints and records.
-/

namespace Phrasebook

/-- What the program finds. -/
structure World where
  arguments : List String
  environment : Environment
  files : FileSystem
  /-- The time of the run, as it is recorded. -/
  time : String

/-- Why a run fails after its command line was read. -/
inductive ProgramError where
  /-- Settings cannot be used. They come from the file that the command line names, if any. -/
  | settings (named? : Option Path) (cause : SettingsError)
  | logging (cause : Log.SetupError)
  | command (cause : CommandError)

namespace ProgramError

def message : ProgramError → String
  | settings (some p) _ => "failed to load " ++ p.text
  | settings none _ => "failed to load configuration"
  | logging _ => "failed to initialize logging"
  | command cause => cause.message

/-- The reasons behind an error, the nearest first. -/
def causes : ProgramError → List String
  | settings _ cause => cause.message :: cause.causes
  | logging cause => cause.message :: cause.causes
  | command cause => cause.causes

def report (e : ProgramError) : String := "Error: " ++ Text.report e.message e.causes ++ "\n"

end ProgramError

/-- How a run ends. -/
inductive Ending where
  | done (output : String)
  /-- There was no command to run. -/
  | stopped (why : Arguments.Stop)
  | failed (e : ProgramError)
  /-- The file for events could not be opened. -/
  | crashed (p : Path)

namespace Ending

/-- The status that the program exits with. -/
def status : Ending → Nat
  | done _ => 0
  | stopped why => if why.isRequest then 0 else 2
  | failed _ => 1
  | crashed _ => 101

/-- What is printed in the end. An empty output is no line. -/
def printed : Ending → String
  | done output => if output.isEmpty then "" else output ++ "\n"
  | stopped .help => CommandLine.helpText
  | stopped .version => CommandLine.versionText
  | stopped _ | failed _ | crashed _ => ""

/-- What is said about a failure. -/
def complaint : Ending → String
  | done _ => ""
  | stopped why => if why.isRequest then "" else "error: " ++ why.message ++ "\n"
  | failed e => e.report
  | crashed p => "cannot open the log file " ++ p.text ++ "\n"

end Ending

/-- What a run leaves behind. -/
structure Outcome where
  ending : Ending
  recorder? : Option Log.Recorder
  /-- The file that was opened for events. -/
  opened? : Option Path
  /-- The events that were recorded. -/
  recorded : List Event
  time : String

namespace Outcome

/-- What is recorded at a destination. -/
def log (o : Outcome) (d : Log.Destination) : String :=
  match o.recorder? with
  | some r =>
    if r.destination = d then Log.lines r.form o.time o.recorded else ""
  | none => ""

def standardOutput (o : Outcome) : String := o.log .standardOutput ++ o.ending.printed

def standardError (o : Outcome) : String := o.log .standardError ++ o.ending.complaint

end Outcome

namespace World

/-- A run that ends before events can be recorded. -/
def outcome (w : World) (ending : Ending) : Outcome := ⟨ending, none, none, [], w.time⟩

/-- The settings of the run. What is recorded on the way to them is lost. -/
def settings [Log.Patterns] (w : World) (line : CommandLine) : Except ProgramError Settings :=
  (match line.config? with
    | some p => Settings.loadFile w.files w.environment p
    | none => Settings.load w.files w.environment).value.mapError (.settings line.config?)

def logSetup (s : Settings) (line : CommandLine) : Log.Setup :=
  match line.logLevel? with
  | some level => { s.log.setup with level }
  | none => s.log.setup

def target : String := "tessera"

def startEvent (s : Settings) : Event :=
  ⟨.debug, target, "Starting tessera", [("settings", .text s.summary)], []⟩

def failureEvent (e : CommandError) : Event :=
  ⟨.error, target, "Command failed: " ++ e.message, [], []⟩

/-- Runs a command and reports on it. -/
def serve (s : Settings) (fs : FileSystem) (c : Command) : Logged (Except CommandError String) := do
  Logged.emit (startEvent s)
  match ← c.run s fs with
  | .ok output => return .ok output
  | .error e => do
    Logged.emit (failureEvent e)
    return .error e

def endingOf : Except CommandError String → Ending
  | .ok output => .done output
  | .error e => .failed (.command e)

/-- What a run has when it comes to its command. -/
structure Start where
  settings : Settings
  recorder : Log.Recorder
  /-- The file that was opened for events. -/
  opened? : Option Path

/-- Settings and a recorder, or how a run ends that cannot have them. -/
def start [Log.Patterns] (w : World) (line : CommandLine) : Except Ending Start :=
  match w.settings line with
  | .error e => .error (.failed e)
  | .ok s =>
    let i := (logSetup s line).install w.environment false
    match i.opened?.filter (!w.files.opens ·) with
    | some p => .error (.crashed p)
    | none =>
      match i.result with
      | .error e => .error (.failed (.logging e))
      | .ok r => .ok ⟨s, r, i.opened?⟩

/-- What happens before the first document is read. -/
def earlyEvents (s : Settings) (fs : FileSystem) (c : Command) : List Event :=
  startEvent s ::
    match c with
    | .tags _ => []
    | .negotiate _ | .localize .. =>
      let source := Source.ofDirectory fs s.translations.directory Source.usualExtension
      (Logged.during (Loading.span source.base) source.entries).events

/-- The files that a command finds. Among them is the one for events, with what was recorded so
far. -/
def filesFor [Log.Patterns] (w : World) (st : Start) (c : Command) : FileSystem :=
  match st.opened? with
  | none => w.files
  | some p =>
    let fs := w.files.withNewFile p
    let early := st.recorder.recorded (earlyEvents st.settings fs c)
    fs.withAppended p (Log.lines st.recorder.form w.time early)

/-- Runs the program for a command line. -/
def runLine [Log.Patterns] (w : World) (line : CommandLine) : Outcome :=
  match w.start line with
  | .error ending => w.outcome ending
  | .ok st =>
    let x := serve st.settings (w.filesFor st line.command) line.command
    ⟨endingOf x.value, some st.recorder, st.opened?, st.recorder.recorded x.events, w.time⟩

def run [Log.Patterns] (w : World) : Outcome :=
  match CommandLine.read w.environment w.arguments with
  | .error why => w.outcome (.stopped why)
  | .ok line => w.runLine line

end World
end Phrasebook
