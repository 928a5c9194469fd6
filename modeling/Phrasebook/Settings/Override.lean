import Phrasebook.Settings.Basic
import Phrasebook.Settings.Fault

/-!
Variables of the environment go before settings; what comes of it is checked.
-/

namespace Phrasebook
namespace Settings

def directoryVariable : String := "TESSERA_TRANSLATIONS_DIR"
def localeVariable : String := "TESSERA_DEFAULT_LOCALE"
def isolatingVariable : String := "TESSERA_USE_ISOLATING"
def levelVariable : String := "TESSERA_LOG_LEVEL"

/-- A truth value with blanks around it. -/
def truth? (s : String) : Option Bool :=
  match Text.trimmed s with
  | "true" => some true
  | "false" => some false
  | _ => none

/-- Directory and default locale from the environment. -/
def withTexts (s : Settings) (env : Environment) : Settings :=
  { s with translations :=
    { s.translations with
      directory := ((env directoryVariable).map Path.mk).getD s.translations.directory
      defaultLocale := (env localeVariable).getD s.translations.defaultLocale } }

def withIsolating (s : Settings) (isolating : Bool) : Settings :=
  { s with translations := { s.translations with isolating } }

def withLevel (s : Settings) (env : Environment) : Settings :=
  { s with log := { s.log with level := (env levelVariable).getD s.log.level } }

/-- Settings with what the environment says in place of them, and what was wrong with it. Where
something is, the level keeps its old value. -/
def override (s : Settings) (env : Environment) : Settings × Option SettingsError :=
  let s := s.withTexts env
  match env isolatingVariable with
  | none => (s.withLevel env, none)
  | some v =>
    match truth? v with
    | some isolating => ((s.withIsolating isolating).withLevel env, none)
    | none => (s, some (.badVariable isolatingVariable))

variable [Log.Patterns]

/-- What must not be set, the first such thing. -/
def bad? (s : Settings) : Option BadSetting :=
  if Text.allBlank s.translations.defaultLocale then some .blankLocale
  else if s.translations.directory.text.isEmpty then some .emptyDirectory
  else
    match Log.Filter.read s.log.level with
    | .error cause => some (.badFilter s.log.level cause)
    | .ok _ => none

def validate (s : Settings) : Except SettingsError Unit :=
  match s.bad? with
  | some what => .error (.invalid what)
  | none => .ok ()

/-- Settings with what the environment says in place of them, checked. -/
def finish (s : Settings) (env : Environment) : Except SettingsError Settings :=
  match s.override env with
  | (_, some e) => .error e
  | (s, none) => s.validate.map fun _ => s

end Settings
end Phrasebook
