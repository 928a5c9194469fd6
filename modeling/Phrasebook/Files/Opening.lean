import Phrasebook.Files.Tree

/-!
Files opened to be written to. A file that is not there is made, and if its directory is not there
either, all directories of its path are made before.
-/

namespace Phrasebook
namespace FileSystem

/-- The names of what is not there yet but can be made at a path. -/
def vacancy? (fs : FileSystem) (follow : Bool) (p : Path) : Option (List String) :=
  match fs.locate follow false p, fs.locate follow true p with
  | .error _, .ok t => some t.names
  | _, _ => none

def withNode (fs : FileSystem) (names : List String) (node : FileNode) : FileSystem :=
  { fs with root := FileNode.insert node names fs.root }

/-- Makes a directory unless there is one. A link that leads nowhere is not replaced. -/
def withDirectory? (fs : FileSystem) (p : Path) : Option FileSystem :=
  match fs.locate true false p with
  | .ok t =>
    match t.node with
    | .directory _ => some fs
    | _ => none
  | .error _ => (fs.vacancy? false p).map (fs.withNode · (.directory []))

/-- Makes the directories that further components add to a path, from the first to the last. -/
def withDirectories? (fs : FileSystem) (path : List Path.Component) :
    List Path.Component → Option FileSystem
  | [] => some fs
  | c :: cs => do
    let fs ← fs.withDirectory? (Path.ofComponents (path ++ [c]))
    fs.withDirectories? (path ++ [c]) cs

/-- What comes of opening a file. -/
structure Opening where
  files : FileSystem
  /-- The names of the file if it was not there before. -/
  made? : Option (List String)

/-- Opens a file in a directory that is there. -/
def openedThere? (fs : FileSystem) (p : Path) : Option Opening :=
  match fs.locate true false p with
  | .ok t =>
    match t.node with
    | .file _ => some ⟨fs, none⟩
    | _ => none
  | .error _ =>
    (fs.vacancy? true p).map fun names => ⟨fs.withNode names (.file (some "")), some names⟩

/-- Opens a file. If that fails it is tried once more, with all its directories made. -/
def opening? (fs : FileSystem) (p : Path) : Option Opening :=
  match fs.openedThere? p with
  | some o => some o
  | none => do
    let fs ← fs.withDirectories? [] (p.parent?.getD [])
    fs.openedThere? p

/-- Whether a file of that path can be opened. -/
def opens (fs : FileSystem) (p : Path) : Bool := (fs.opening? p).isSome

/-- The names of a file that is made when it is opened. -/
def newFile? (fs : FileSystem) (p : Path) : Option (List String) := (fs.opening? p).bind (·.made?)

/-- The files after one was opened, or tried to. -/
def withNewFile (fs : FileSystem) (p : Path) : FileSystem :=
  ((fs.opening? p).map (·.files)).getD fs

end FileSystem
end Phrasebook
