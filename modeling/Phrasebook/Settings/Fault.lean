import Phrasebook.Files.Error
import Phrasebook.Log.Setup
import Phrasebook.Yaml.Decoding

/-!
Why settings cannot be used.
-/

namespace Phrasebook

/-- What must not be set. -/
inductive BadSetting where
  | blankLocale
  | emptyDirectory
  | badFilter (level : String) (cause : Log.FilterFault)
  deriving DecidableEq, Repr

inductive SettingsError where
  | unreadable (path : Path) (cause : FileError)
  | malformed (cause : Yaml.DecodingError)
  /-- A variable that must be true or false. -/
  | badVariable (name : String)
  | invalid (what : BadSetting)

def BadSetting.message : BadSetting → String
  | blankLocale => "i18n.default_locale cannot be empty"
  | emptyDirectory => "i18n.translations_dir cannot be empty"
  | badFilter level cause =>
    "logging.level '" ++ level ++ "' is not a valid filter: " ++ cause.message

namespace SettingsError

def notBoolean : String := "provided string was not \x60true\x60 or \x60false\x60"

def message : SettingsError → String
  | unreadable path cause =>
    "Failed to read configuration file " ++ path.text ++ ": " ++ cause.message
  | malformed cause => "Failed to parse YAML configuration: " ++ cause.message
  | badVariable name =>
    "Failed to parse environment variable '" ++ name ++ "': " ++ notBoolean
  | invalid what => "Invalid configuration: " ++ what.message

/-- The reasons behind an error, the nearest first. -/
def causes : SettingsError → List String
  | unreadable _ cause => [cause.message]
  | malformed cause => [cause.message]
  | badVariable _ => [notBoolean]
  | invalid _ => []

end SettingsError
end Phrasebook
