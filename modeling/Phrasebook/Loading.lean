import Phrasebook.Catalog
import Phrasebook.Source

/-!
Loading of documents. Every entry of a source is read on its own, and the reads may be done in any
order; the first that fails ends the loading, and if none does the documents are filed in the order
of the entries.
-/

namespace Phrasebook

/-- The locale of a document: the first ordinary component of its path below the base. -/
def localeForPath (base path : Path) : Locale :=
  ⟨((Path.below base path).findSome? Path.Component.name?).getD ""⟩

namespace Loading

def target : String := "tessera_i18n::loader"

/-- What becomes of an entry when its read is done. -/
def complete (e : SourceEntry) : Except LoadError Document :=
  match e.content with
  | .error cause => .error (.unreadable e.path cause)
  | .ok text => Document.read e.path text

def readEvent (base : Path) (d : Document) : Event where
  level := .debug
  target := target
  message := "Loaded translation document"
  fields := [("locale", .text (localeForPath base d.path).name), ("path", .text d.path.text),
    ("messages", .count d.messageIds.length)]
  spans := []

/-- Reads that are done or still to come, one for each entry. -/
abbrev Pending := List (Option Document)

def Pending.finish (p : Pending) (i : Nat) (d : Document) : Pending := p.set i (some d)

/-- Lets the reads of some entries be done, one after another. -/
def run (base : Path) (entries : List SourceEntry) :
    List Nat → Pending → Logged (Except LoadError Pending)
  | [], p => pure (.ok p)
  | i :: is, p =>
    match entries[i]? with
    | none => run base entries is p
    | some e =>
      match complete e with
      | .error err => pure (.error err)
      | .ok d => do
        Logged.emit (readEvent base d)
        run base entries is (p.finish i d)

/-- The documents of a source whose reads are done in the given order. -/
def readInOrder (base : Path) (entries : List SourceEntry) (order : List Nat) :
    Logged (Except LoadError (List Document)) := do
  match ← run base entries order (entries.map fun _ => none) with
  | .error err => return .error err
  | .ok p => return .ok (p.filterMap id)

/-- Files documents by their paths. -/
def file (base : Path) (ds : List Document) : Catalog :=
  .ofList (ds.map fun d => (localeForPath base d.path, d))

def doneEvent (c : Catalog) : Event where
  level := .info
  target := target
  message := "Loaded translation resources"
  fields := [("locales", .count c.size), ("documents", .count c.documentCount)]
  spans := []

def span (base : Path) : Span where
  name := "load"
  target := target
  level := .info
  fields := [("base", .text base.text)]

/-- The documents of a source by locale, its reads done in some order. -/
def loadInOrder (s : Source) (order : List Nat) : Logged (Except LoadError Catalog) :=
  Logged.during (span s.base) do
    match ← s.entries with
    | .error err => return .error err
    | .ok entries =>
      match ← readInOrder s.base entries order with
      | .error err => return .error err
      | .ok ds =>
        let c := file s.base ds
        Logged.emit (doneEvent c)
        return .ok c

/-- The order of discovery. -/
def discoveryOrder (s : Source) : List Nat :=
  match s.entries.value with
  | .ok entries => List.range entries.length
  | .error _ => []

/-- Loads a source, each entry in its turn. -/
def load (s : Source) : Logged (Except LoadError Catalog) := loadInOrder s (discoveryOrder s)

end Loading
end Phrasebook
