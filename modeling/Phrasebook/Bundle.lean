import Phrasebook.Document
import Phrasebook.Event
import Phrasebook.Fluent.Resolver

/-!
The messages of one locale. Messages and terms share one table, in which the first entry of a name
stays; later ones are reported.
-/

namespace Phrasebook

open Fluent

structure Bundle where
  locale : Locale
  isolating : Bool
  /-- Where the documents came from, also those that added nothing. -/
  sources : List Path
  /-- The first entry of each name, in order of arrival. -/
  table : List Entry

/-- A locale with its kind, as it is shown in lists. -/
def Locale.shown (l : Locale) : String := "LocaleId(" ++ Text.quoted l.name ++ ")"

/-- The part of a key before its first dot names a message, the part after it an attribute. -/
def splitKey (key : String) : String × Option String :=
  let cs := key.toList
  match cs.dropWhile (· != '.') with
  | [] => (key, none)
  | _ :: r => (String.ofList (cs.takeWhile (· != '.')), some (String.ofList r))

/-- The first entry of that name. -/
def lookup (table : List Entry) (id : String) : Option Entry := table.find? (·.id == id)

/-- Adds entries to a table, and lists those that came too late. -/
def enter (table : List Entry) : List Entry → List Entry × List Entry
  | [] => (table, [])
  | e :: es =>
    if (lookup table e.id).isSome then
      let (table, late) := enter table es
      (table, e :: late)
    else enter (table ++ [e]) es

namespace Bundle

def target : String := "tessera_i18n::bundle"

def empty (locale : Locale) : Bundle := ⟨locale, true, [], []⟩

def entry? (b : Bundle) (id : String) : Option Entry := lookup b.table id

/-- The message of that name; a term does not count. -/
def message? (b : Bundle) (id : String) : Option Entry := (b.entry? id).filter (·.isMessage)

def kindName : EntryKind → String
  | .message => "Message"
  | .term => "Term"

/-- What is reported of an entry that came too late. -/
def lateEvent (b : Bundle) (path : Path) (e : Entry) : Event where
  level := .warn
  target := target
  message := "Ignoring " ++ kindName e.kind ++ " '" ++ e.id ++
    "', already defined by an earlier document"
  fields := [("locale", .text b.locale.name), ("path", .text path.text)]
  spans := []

/-- Adds a document; returns the names of the entries that came too late. -/
def add (b : Bundle) (d : Document) : Logged (Bundle × List String) :=
  let (table, late) := enter b.table d.entries
  ⟨({ b with sources := b.sources ++ [d.path], table := table }, late.map (·.id)),
    late.map (b.lateEvent d.path)⟩

def addAll (b : Bundle) : List Document → Logged Bundle
  | [] => pure b
  | d :: ds => do
    let (b, _) ← b.add d
    b.addAll ds

/-- A bundle of documents, the earlier before the later. -/
def ofDocuments (locale : Locale) (documents : List Document) (isolating : Bool) :
    Logged Bundle := do
  let b ← Bundle.addAll { empty locale with isolating := isolating } documents
  Logged.emit
    { level := .debug, target := target, message := "Built translation bundle"
      fields := [("locale", .text b.locale.name), ("documents", .count b.sources.length)]
      spans := [] }
  return b

def hasMessage (b : Bundle) (key : String) : Bool := (b.message? (splitKey key).1).isSome

/-- The pattern a key stands for: the attribute it names if the message has it, else the value. -/
def pattern? (b : Bundle) (key : String) : Option Pattern := do
  let (id, attribute?) := splitKey key
  let e ← b.message? id
  (attribute?.bind e.attribute?).or e.value?

def scope (b : Bundle) (args? : Option ArgumentSet) : Scope :=
  ⟨b.entry?, b.isolating, b.locale.language, args?⟩

def problemEvent (b : Bundle) (key : String) (p : Problem) : Event where
  level := .error
  target := target
  message := "Failed to format translation " ++ key ++ ": " ++ p.message
  fields := [("locale", .text b.locale.name)]
  spans := []

/-- The text of a key. Problems on the way are reported, and what is missing leaves its name. -/
def format (b : Bundle) (key : String) (args? : Option ArgumentSet) : Logged (Option String) :=
  match b.pattern? key with
  | none => pure none
  | some pattern =>
    let (text, problems) := Fluent.format (b.scope args?) pattern
    ⟨some text, problems.map (b.problemEvent key)⟩

def firstSource? (b : Bundle) : Option Path := b.sources.head?

/-- A one-line description. -/
def summary (b : Bundle) : String :=
  "Bundle \x7b locale: " ++ b.locale.shown ++ ", sources: " ++
    Text.bracketed (b.sources.map fun p => Text.quotedPath p.text) ++ ", .. \x7d"

end Bundle
end Phrasebook
