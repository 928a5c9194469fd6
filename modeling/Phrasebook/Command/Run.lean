import Phrasebook.Command.Basic
import Phrasebook.Command.Fault
import Phrasebook.Loading
import Phrasebook.Negotiation
import Phrasebook.Settings.Basic
import Phrasebook.Tag.Record
import Phrasebook.Tag.Selection

/-!
Doing what a command says. The output is a text without a newline at its end.
-/

namespace Phrasebook

namespace Preferences

def headerEvent (requested : List String) : Event where
  level := .debug
  target := "tessera_cli::app"
  message := "Requested locales from Accept-Language"
  fields := [("requested", .text (Text.bracketed (requested.map Text.quoted)))]
  spans := []

/-- The locales of the list, else those of the header. -/
def requested (p : Preferences) : Logged (List String) :=
  match p.locales with
  | [] =>
    let locales := (p.header?.map languageHeader).getD []
    ⟨locales, [headerEvent locales]⟩
  | locales => pure locales

end Preferences

/-- An argument of a message. The first equals sign ends the name, which is not empty. -/
def messageArgument (a : String) : Except CommandError (String × String) :=
  let cs := a.toList
  match cs.takeWhile (· != '='), cs.dropWhile (· != '=') with
  | c :: name, _ :: value => .ok (String.ofList (c :: name), String.ofList value)
  | _, _ => .error (.badArgument a)

def messageArguments (as : List String) : Except CommandError (List (String × String)) :=
  as.mapM messageArgument

def argumentSet (pairs : List (String × String)) : Fluent.ArgumentSet :=
  .ofPairs (pairs.map fun p => (p.1, .string p.2))

namespace TagCommand

/-- A tag to choose from: a record if it starts like one, else a token. -/
def input (s : String) : Except CommandError Tag :=
  match s.toList.dropWhile Text.isBlank with
  | '\x7b' :: _ =>
    match TagItem.ofJsonText s with
    | .ok i => .ok i.tag
    | .error fault => .error (.badRecord fault)
  | _ => .ok (TagItem.token s).tag

def splitText (t : Tag) : String := t.toJson.text

def userText (ts : List Tag) : String := "\n".intercalate ((Tag.userTags ts).map Tag.concat)

def run : TagCommand → Logged (Except CommandError String)
  | split token false => pure (.ok (splitText (.split token)))
  | split token true => do
    match ← Tag.parsePublic token with
    | .ok t => return .ok (splitText t)
    | .error e => return .error (.badTag e)
  | concat key value? => pure (.ok (Tag.concat ⟨key, value?⟩))
  | user inputs => pure ((inputs.mapM input).map userText)

end TagCommand

namespace Settings

def negotiator (s : Settings) : Negotiator :=
  ⟨⟨s.translations.defaultLocale⟩, s.translations.isolating⟩

/-- The documents below the directory that is set. -/
def catalog (s : Settings) (fs : FileSystem) : Logged (Except LoadError Catalog) :=
  Loading.load (.ofDirectory fs s.translations.directory Source.usualExtension)

end Settings

namespace Command

def noneEvent (s : Settings) : Event where
  level := .warn
  target := "tessera_cli::app"
  message := "No translations available for the requested locales"
  fields := [("default_locale", .text s.translations.defaultLocale)]
  spans := []

/-- The locales to answer in. -/
def select (s : Settings) (c : Catalog) (p : Preferences) : Logged (List Locale) := do
  let selected ← s.negotiator.select c (← p.requested)
  if selected.isEmpty then Logged.emit (noneEvent s)
  return selected

/-- The text of a key in the locale that the preferences lead to. -/
def localized (s : Settings) (c : Catalog) (key : String) (arguments : List String)
    (p : Preferences) : Logged (Except CommandError String) :=
  match messageArguments arguments with
  | .error e => return .error e
  | .ok pairs => do
    let bundles ← s.negotiator.negotiate c (← p.requested)
    return .ok (← Localizer.localize ⟨bundles⟩ key (some (argumentSet pairs)))

/-- What is done with the documents once they are loaded. -/
def withCatalog (s : Settings) (fs : FileSystem)
    (f : Catalog → Logged (Except CommandError String)) : Logged (Except CommandError String) := do
  match ← s.catalog fs with
  | .error e => return .error (.loading e)
  | .ok c => f c

def run (s : Settings) (fs : FileSystem) : Command → Logged (Except CommandError String)
  | negotiate p => withCatalog s fs fun c => do
    return .ok ("\n".intercalate ((← select s c p).map (·.name)))
  | localize key arguments p => withCatalog s fs fun c => localized s c key arguments p
  | tags command => command.run

end Command
end Phrasebook
