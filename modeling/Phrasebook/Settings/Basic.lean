import Phrasebook.Log.Setup
import Phrasebook.Text.Quoted

/-!
What can be set about the program, and what holds where nothing is set.
-/

namespace Phrasebook

/-- Where translations are and how they are used. -/
structure TranslationSettings where
  directory : Path
  defaultLocale : String
  isolating : Bool
  deriving DecidableEq, Repr

structure LogSettings where
  level : String
  json : Bool
  file? : Option Path
  deriving DecidableEq, Repr

structure Settings where
  translations : TranslationSettings
  log : LogSettings
  deriving DecidableEq, Repr

def TranslationSettings.usual : TranslationSettings := ⟨⟨"translations"⟩, "en", true⟩

def LogSettings.usual : LogSettings := ⟨"info", false, none⟩

def LogSettings.setup (s : LogSettings) : Log.Setup :=
  { Log.Setup.usual with level := s.level, json := s.json, file? := s.file? }

def Settings.usual : Settings := ⟨.usual, .usual⟩

/-- A one-line description. -/
def TranslationSettings.summary (s : TranslationSettings) : String :=
  "I18nSettings \x7b translations_dir: " ++ Text.quotedPath s.directory.text ++
    ", default_locale: " ++ Text.quoted s.defaultLocale ++
    ", use_isolating: " ++ toString s.isolating ++ " \x7d"

def LogSettings.summary (s : LogSettings) : String :=
  "LoggingSettings \x7b level: " ++ Text.quoted s.level ++ ", json: " ++ toString s.json ++
    ", file: " ++ (match s.file? with
      | none => "None"
      | some p => "Some(" ++ Text.quotedPath p.text ++ ")") ++ " \x7d"

def Settings.summary (s : Settings) : String :=
  "Settings \x7b i18n: " ++ s.translations.summary ++ ", logging: " ++ s.log.summary ++ " \x7d"

end Phrasebook
