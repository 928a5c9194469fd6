import Phrasebook.Files.Tree
import Phrasebook.Settings.Override
import Phrasebook.Settings.Reading

/-!
The one file that settings come from.
-/

namespace Phrasebook
namespace Settings

/-- The variable that names the file. -/
def pathVariable : String := "TESSERA_CONFIG_PATH"

/-- Files that are tried where none is named. -/
def usualFiles : List Path := [⟨"tessera.yaml"⟩, ⟨"tessera.yml"⟩]

def target : String := "tessera_config::loader"

def readEvent (p : Path) : Event :=
  ⟨.info, target, "Loaded configuration", [("path", .text p.text)], []⟩

def noFileEvent : Event := ⟨.debug, target, "No configuration file found, using defaults", [], []⟩

/-- The settings of a file as they are. -/
def ofFile (fs : FileSystem) (p : Path) : Logged (Except SettingsError Settings) :=
  match fs.readText p with
  | .error cause => return .error (.unreadable p cause)
  | .ok text =>
    match ofYaml text with
    | .error e => return .error e
    | .ok s => ⟨.ok s, [readEvent p]⟩

/-- The settings of a file under the environment. -/
def loadFile [Log.Patterns] (fs : FileSystem) (env : Environment) (p : Path) :
    Logged (Except SettingsError Settings) := do
  match ← ofFile fs p with
  | .error e => return .error e
  | .ok s => return s.finish env

/-- The file named by the environment, else the first usual file that is there. -/
def source? (fs : FileSystem) (env : Environment) : Option Path :=
  match env pathVariable with
  | some p => some ⟨p⟩
  | none => usualFiles.find? fs.exists?

/-- The settings of the file that is found, else the usual ones, under the environment. -/
def load [Log.Patterns] (fs : FileSystem) (env : Environment) :
    Logged (Except SettingsError Settings) :=
  match source? fs env with
  | some p => loadFile fs env p
  | none => ⟨usual.finish env, [noFileEvent]⟩

end Settings
end Phrasebook
