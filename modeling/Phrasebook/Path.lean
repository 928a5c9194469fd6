/-!
Paths as sequences of components. Repeated and closing separators and inner dots make no component;
a leading dot and every double dot do. Paths are compared and stripped by components and printed as
they were given.
-/

namespace Phrasebook

structure Path where
  text : String
  deriving DecidableEq, Repr, Inhabited

namespace Path

inductive Component where
  | root
  | current
  | parent
  | name (segment : String)
  deriving DecidableEq, Repr

namespace Component

/-- Rank of the kinds of components in their order. -/
def rank : Component → Nat
  | root => 0
  | current => 1
  | parent => 2
  | name _ => 3

instance : Ord Component where
  compare
    | name a, name b => compare a b
    | a, b => compare a.rank b.rank

def text : Component → String
  | root => "/"
  | current => "."
  | parent => ".."
  | name s => s

/-- The segment of an ordinary component. -/
def name? : Component → Option String
  | name s => some s
  | _ => none

end Component

/-- The stretches between slashes, empty ones included. -/
def segments : List Char → List (List Char)
  | [] => [[]]
  | '/' :: r => [] :: segments r
  | c :: r =>
    match segments r with
    | [] => [[c]]
    | s :: ss => (c :: s) :: ss

/-- What a segment inside a path stands for. -/
def inner? (segment : List Char) : Option Component :=
  if segment = [] || segment = ['.'] then none
  else if segment = ['.', '.'] then some .parent
  else some (.name (String.ofList segment))

def components (p : Path) : List Component :=
  match segments p.text.toList with
  | [] => []
  | s :: ss =>
    if s = [] && ss ≠ [] then .root :: ss.filterMap inner?
    else if s = ['.'] then .current :: ss.filterMap inner?
    else (s :: ss).filterMap inner?

/-- The shortest spelling of a sequence of components. -/
def ofComponents : List Component → Path
  | .root :: cs => ⟨"/" ++ "/".intercalate (cs.map Component.text)⟩
  | cs => ⟨"/".intercalate (cs.map Component.text)⟩

def compareTo (p q : Path) : Ordering := List.compareLex compare p.components q.components

/-- Component by component, a path before the paths below it. -/
def le (p q : Path) : Bool := (p.compareTo q).isLE

def isAbsolute (p : Path) : Bool := p.text.startsWith "/"

/-- A path seen from another; an absolute one stays as it is. -/
def join (p q : Path) : Path :=
  if q.isAbsolute || p.text.isEmpty then q
  else if p.text.endsWith "/" then ⟨p.text ++ q.text⟩
  else ⟨p.text ++ "/" ++ q.text⟩

/-- The components below `base`, or all of them if the path is not below it. -/
def below (base p : Path) : List Component :=
  if base.components.isPrefixOf p.components then p.components.drop base.components.length
  else p.components

/-- The last component, if it is an ordinary one. -/
def fileName? (p : Path) : Option String := p.components.getLast?.bind Component.name?

/-- All components but the last; none for the root and the empty path. -/
def parent? (p : Path) : Option (List Component) :=
  match p.components.getLast? with
  | none | some .root => none
  | some _ => some p.components.dropLast

/-- What follows the last dot of the file name, unless the name begins with that dot. -/
def extension? (p : Path) : Option String := do
  let name ← p.fileName?
  let cs := name.toList.reverse
  match cs.dropWhile (· != '.') with
  | _ :: _ :: _ => some (String.ofList (cs.takeWhile (· != '.')).reverse)
  | _ => none

end Path
end Phrasebook
