import Phrasebook.Yaml.Lexer

/-!
The tree of a document. Where its text cannot be read any further the tree ends in a broken node, so
that what is wrong with the tree up to there is met first.
-/

namespace Phrasebook.Yaml

structure Scalar where
  style : Style
  tag? : Option String
  text : String
  deriving DecidableEq, Repr

/-- What stands before a node: its place and the number of its anchor. -/
structure Head where
  mark : Mark
  anchor? : Option Nat

inductive Node where
  | scalar (head : Head) (s : Scalar)
  | sequence (head : Head) (items : List Node)
  | mapping (head : Head) (entries : List (Node × Node))
  | aliasTo (mark : Mark) (anchor : Nat)
  | broken (f : Fault)

namespace Node

instance : Inhabited Node := ⟨sequence ⟨⟨0, 0, 0⟩, none⟩ []⟩

def anchor? : Node → Option Nat
  | scalar h _ | sequence h _ | mapping h _ => h.anchor?
  | _ => none

mutual

/-- The nodes of a tree in the order of the text. -/
def nodes (n : Node) : List Node :=
  n :: match n with
    | sequence _ items => nodesOfItems items
    | mapping _ entries => nodesOfEntries entries
    | _ => []

def nodesOfItems : List Node → List Node
  | [] => []
  | n :: ns => n.nodes ++ nodesOfItems ns

def nodesOfEntries : List (Node × Node) → List Node
  | [] => []
  | (k, v) :: es => k.nodes ++ v.nodes ++ nodesOfEntries es

end

/-- The last node with an anchor of that number. -/
def anchored? (root : Node) (n : Nat) : Option Node :=
  root.nodes.reverse.find? (·.anchor? == some n)

end Node

end Phrasebook.Yaml
