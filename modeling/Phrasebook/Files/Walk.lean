import Phrasebook.Files.Tree

/-!
All files below a directory, each directory before its siblings that come later by name. Links are
not followed, except at the root.
-/

namespace Phrasebook

/-- A file that was found, and its text if it has one. -/
structure FoundFile where
  path : Path
  text? : Option String

namespace FileNode

/-- Siblings in the order of their names. -/
def byName {α : Type} (entries : List (String × α)) : List (String × α) :=
  entries.mergeSort fun a b => a.1 ≤ b.1

mutual

/-- The files at and below a node. -/
def walk (p : Path) : FileNode → List FoundFile
  | file text? => [⟨p, text?⟩]
  | link _ => []
  | directory entries => (byName (walkEntries p entries)).flatMap (·.2)

/-- The files below each entry, in the order in which entries come. -/
def walkEntries (p : Path) : List (String × FileNode) → List (String × List FoundFile)
  | [] => []
  | (name, node) :: rest => (name, walk (p.join ⟨name⟩) node) :: walkEntries p rest

end

end FileNode

namespace FileSystem

/-- The files below a path. A path that is itself a link to a file has none. Only the path itself
can be missing: below it, every entry is come to. -/
def walk (fs : FileSystem) (p : Path) : Except FileError (List FoundFile) := do
  let t ← fs.locate false false p
  match t.node with
  | .link _ =>
    let t ← fs.locate true false p
    match t.node with
    | .directory entries => return FileNode.walk p (.directory entries)
    | _ => return []
  | node => return node.walk p

end FileSystem
end Phrasebook
