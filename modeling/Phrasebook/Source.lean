import Phrasebook.Document
import Phrasebook.Event
import Phrasebook.Files.Walk

/-!
Where documents come from: texts in memory, or the files of a directory.
-/

namespace Phrasebook

/-- A document to be read: its path, and what reading will give. -/
structure SourceEntry where
  path : Path
  content : Except FileError String

/-- Entries below a base path, or why they could not be listed. -/
structure Source where
  base : Path
  entries : Logged (Except LoadError (List SourceEntry))

namespace Source

def target : String := "tessera_i18n::source"

/-- Texts in the order given. -/
def ofMemory (base : Path) (files : List (Path × String)) : Source :=
  ⟨base, pure (.ok (files.map fun f => ⟨f.1, .ok f.2⟩))⟩

def foundEntry (f : FoundFile) : SourceEntry :=
  ⟨f.path, match f.text? with
    | some text => .ok text
    | none => .error .notUtf8⟩

/-- The extension of documents. -/
def usualExtension : String := "ftl"

/-- The files of that extension below the root, as a walk comes upon them. -/
def walked (fs : FileSystem) (root : Path) (extension : String) :
    Except FileError (List FoundFile) := do
  let files ← fs.walk root
  return files.filter fun f => f.path.extension? == some extension

/-- The files of that extension below the root, by path. -/
def found (fs : FileSystem) (root : Path) (extension : String) :
    Except FileError (List FoundFile) := do
  let files ← walked fs root extension
  return files.mergeSort fun f g => f.path.le g.path

def foundEvent (root : Path) (n : Nat) : Event where
  level := .debug
  target := target
  message := "Discovered translation files"
  fields := [("root", .text root.text), ("count", .count n)]
  spans := []

def ofDirectory (fs : FileSystem) (root : Path) (extension : String) : Source where
  base := root
  entries :=
    match found fs root extension with
    | .error cause => pure (.error (.discovery root cause))
    | .ok files => ⟨.ok (files.map foundEntry), [foundEvent root files.length]⟩

end Source
end Phrasebook
