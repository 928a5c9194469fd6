import Phrasebook.Files.Error
import Phrasebook.Path

/-!
A file system at one moment: directories, files and symbolic links, and how paths lead through
them.
-/

namespace Phrasebook

/-- What a name in a directory stands for. A file holds a text, unless its bytes are no UTF-8. The
entries of a directory come in no particular order. -/
inductive FileNode where
  | file (text? : Option String)
  | link (target : Path)
  | directory (entries : List (String × FileNode))

namespace FileNode

instance : Inhabited FileNode := ⟨directory []⟩

def entryOf? (entries : List (String × FileNode)) (name : String) : Option FileNode :=
  (entries.find? (·.1 == name)).map (·.2)

/-- Sets an entry. -/
def withEntry (entries : List (String × FileNode)) (name : String) (node : FileNode) :
    List (String × FileNode) :=
  if entries.any (·.1 == name) then
    entries.map fun e => if e.1 == name then (name, node) else e
  else entries ++ [(name, node)]

/-- Puts a node at the end of a chain of names, making the directories on the way. A directory that
is there already stays. -/
def insert (node : FileNode) : List String → FileNode → FileNode
  | [], old =>
    match node, old with
    | directory [], directory _ => old
    | _, _ => node
  | n :: ns, directory entries =>
    directory (withEntry entries n (insert node ns ((entryOf? entries n).getD (directory []))))
  | n :: ns, _ => directory [(n, insert node ns (directory []))]

end FileNode

structure FileSystem where
  root : FileNode
  /-- The names on the way from the root to the current directory. -/
  current : List String

/-- The way from the root to a node: names and nodes, the innermost first, without the root. -/
structure Trail where
  root : FileNode
  steps : List (String × FileNode)

namespace Trail

def node (t : Trail) : FileNode :=
  match t.steps with
  | [] => t.root
  | s :: _ => s.2

def names (t : Trail) : List String := (t.steps.map (·.1)).reverse

def up (t : Trail) : Trail := { t with steps := t.steps.drop 1 }

def down (t : Trail) (name : String) (node : FileNode) : Trail :=
  { t with steps := (name, node) :: t.steps }

end Trail

namespace FileSystem

/-- So many links may be followed for one path. -/
def linkLimit : Nat := 40

def segmentTexts (p : Path) : List String := (Path.segments p.text.toList).map String.ofList

/-- Follows the segments of a path from where the trail ends. A link at the very end is followed
only with `follow`. With `make` the last name may be missing, and an empty directory stands for
it. -/
def descend (follow make : Bool) (links : Nat) (t : Trail) (segments : List String) :
    Except FileError Trail :=
  match segments with
  | [] => .ok t
  | s :: rest =>
    match t.node with
    | .directory entries =>
      if s.isEmpty || s == "." then descend follow make links t rest
      else if s == ".." then descend follow make links t.up rest
      else if 255 < s.utf8ByteSize then .error .nameTooLong
      else
        match FileNode.entryOf? entries s with
        | none =>
          if make && rest.isEmpty then .ok (t.down s (.directory []))
          else .error .notFound
        | some (.link target) =>
          if rest.isEmpty && !follow then .ok (t.down s (.link target))
          else
            match links with
            | 0 => .error .tooManyLinks
            | links + 1 =>
              if target.text.isEmpty then .error .notFound
              else
                let start := if target.isAbsolute then { t with steps := [] } else t
                descend follow make links start (segmentTexts target ++ rest)
        | some node => descend follow make links (t.down s node) rest
    | _ => .error .notADirectory
termination_by (links, segments.length)

/-- The node of a path. Its names may not be too long, but the path as a whole may be of any length,
as the paths are that a walk comes upon. -/
def locate (fs : FileSystem) (follow make : Bool) (p : Path) : Except FileError Trail :=
  if p.text.toList.contains '\x00' then .error .nulInName
  else if p.text.isEmpty then .error .notFound
  else
    let start := if p.isAbsolute then [] else fs.current
    descend follow make linkLimit ⟨fs.root, []⟩ (start ++ segmentTexts p)

/-- Whether a path leads to anything. -/
def exists? (fs : FileSystem) (p : Path) : Bool := (fs.locate true false p).isOk

/-- The text of a file. -/
def readText (fs : FileSystem) (p : Path) : Except FileError String :=
  match fs.locate true false p with
  | .error e => .error e
  | .ok t =>
    match t.node with
    | .file (some text) => .ok text
    | .file none => .error .notUtf8
    | .directory _ => .error .isADirectory
    | .link _ => .error .tooManyLinks

/-- Adds to the text of a file. -/
def withAppended (fs : FileSystem) (p : Path) (more : String) : FileSystem :=
  match fs.locate true false p with
  | .ok t =>
    match t.node with
    | .file (some text) =>
      { fs with root := FileNode.insert (.file (some (text ++ more))) t.names fs.root }
    | _ => fs
  | .error _ => fs

end FileSystem
end Phrasebook
