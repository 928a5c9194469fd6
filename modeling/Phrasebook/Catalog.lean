import Phrasebook.Document
import Phrasebook.Locale.Basic

/-!
Documents by locale. Locales stand in the order of their names, and the documents of a locale in
the order in which they came.
-/

namespace Phrasebook

/-- The documents of one locale. -/
structure Shelf where
  locale : Locale
  documents : List Document

structure Catalog where
  shelves : List Shelf

namespace Catalog

def empty : Catalog := ⟨[]⟩

/-- Puts a document last on the shelf of its locale, which is set up if there is none. -/
def insert (locale : Locale) (d : Document) : List Shelf → List Shelf
  | [] => [⟨locale, [d]⟩]
  | s :: ss =>
    if locale.name < s.locale.name then ⟨locale, [d]⟩ :: s :: ss
    else if locale = s.locale then { s with documents := s.documents ++ [d] } :: ss
    else s :: insert locale d ss

def push (c : Catalog) (locale : Locale) (d : Document) : Catalog :=
  ⟨insert locale d c.shelves⟩

def ofList (ps : List (Locale × Document)) : Catalog :=
  ps.foldl (fun c p => c.push p.1 p.2) empty

def get? (c : Catalog) (name : String) : Option (List Document) :=
  (c.shelves.find? (·.locale.name == name)).map (·.documents)

def supports (c : Catalog) (name : String) : Bool := c.shelves.any (·.locale.name == name)

def locales (c : Catalog) : List Locale := c.shelves.map (·.locale)

/-- The number of locales. -/
def size (c : Catalog) : Nat := c.shelves.length

def isEmpty (c : Catalog) : Bool := c.shelves.isEmpty

def documentCount (c : Catalog) : Nat := (c.shelves.flatMap (·.documents)).length

end Catalog
end Phrasebook
