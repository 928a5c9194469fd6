import Phrasebook.Settings.Basic
import Phrasebook.Settings.Fault

/-!
Settings from YAML. What a text does not name keeps its usual value.
-/

namespace Phrasebook

open Yaml

def pathOf (s : Spot) : Decoded Path := (s.text "path string").map Path.mk

namespace TranslationSettings

def field? (name : String) : Option (Spot.FieldReader TranslationSettings) :=
  match name with
  | "translations_dir" => some fun acc _ s => return { acc with directory := ← pathOf s }
  | "default_locale" => some fun acc _ s => return { acc with defaultLocale := ← s.text "a string" }
  | "use_isolating" => some fun acc _ s => return { acc with isolating := ← s.boolean }
  | _ => none

def read (s : Spot) : Decoded TranslationSettings := s.record "struct I18nSettings" field? usual

end TranslationSettings

namespace LogSettings

def field? (name : String) : Option (Spot.FieldReader LogSettings) :=
  match name with
  | "level" => some fun acc _ s => return { acc with level := ← s.text "a string" }
  | "json" => some fun acc _ s => return { acc with json := ← s.boolean }
  | "file" => some fun acc start s => return { acc with file? := ← s.optional start pathOf }
  | _ => none

def read (s : Spot) : Decoded LogSettings := s.record "struct LoggingSettings" field? usual

end LogSettings

namespace Settings

def field? (name : String) : Option (Spot.FieldReader Settings) :=
  match name with
  | "i18n" => some fun acc _ s => return { acc with translations := ← TranslationSettings.read s }
  | "logging" => some fun acc _ s => return { acc with log := ← LogSettings.read s }
  | _ => none

def read (s : Spot) : Decoded Settings := s.record "struct Settings" field? usual

/-- A blank text sets nothing. -/
def ofYaml (text : String) : Except SettingsError Settings :=
  if Text.allBlank text then .ok usual
  else
    match decode usual read text with
    | .ok s => .ok s
    | .error e => .error (.malformed e)

end Settings
end Phrasebook
