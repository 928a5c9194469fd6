import Phrasebook.Yaml.Reading
import Phrasebook.Yaml.Shape

/-!
Values of known kinds out of a document. What does not fit is told with the way to it from the root
and with its place.
-/

namespace Phrasebook.Yaml

/-- What does not fit. -/
inductive Misfit where
  | wrongType (found : Shape) (expected : String)
  | wrongValue (text expected : String)
  | duplicateField (name : String)

def Misfit.text : Misfit → String
  | wrongType found expected => "invalid type: " ++ found.text ++ ", expected " ++ expected
  | wrongValue text expected =>
    "invalid value: string " ++ Text.quoted text ++ ", expected " ++ expected
  | duplicateField name => "duplicate field \x60" ++ name ++ "\x60"

inductive DecodingError where
  | unreadable (f : Fault)
  | misfit (m : Misfit) (path : List String) (place : Mark)
  | manyDocuments

def DecodingError.message : DecodingError → String
  | unreadable f => f.message
  | misfit m path place =>
    (if path.isEmpty then "" else ".".intercalate path ++ ": ") ++ m.text ++ place.at
  | manyDocuments => "deserializing from YAML containing more than one document is not supported"

abbrev Decoded := Except DecodingError

/-- A node on the way from the root. -/
structure Spot where
  /-- The root, which aliases refer to. -/
  root : Node
  node : Node
  path : List String

namespace Spot

/-- What an alias stands for, anything else for itself. -/
def resolved (s : Spot) : Node :=
  match s.node with
  | .aliasTo _ n => (s.root.anchored? n).getD s.node
  | n => n

/-- The node does not fit. -/
def mismatch {α : Type} (s : Spot) (expected : String) : Decoded α :=
  let wrong (m : Mark) (found : Shape) : Decoded α :=
    .error (.misfit (.wrongType found expected) s.path m)
  match s.resolved with
  | .scalar h sc =>
    match sc.shape with
    | .ok found => wrong h.mark found
    | .error shouldBe => .error (.misfit (.wrongValue sc.text shouldBe) s.path h.mark)
  | .sequence h _ => wrong h.mark .sequence
  | .mapping h _ => wrong h.mark .map
  | .aliasTo m _ => .error (.unreadable ⟨.unknownAnchor, .mark m, none⟩)
  | .broken f => .error (.unreadable f)

/-- Any scalar is a text. -/
def text (expected : String) (s : Spot) : Decoded String :=
  match s.resolved with
  | .scalar _ sc => .ok sc.text
  | _ => s.mismatch expected

/-- Truth values are written plainly, or in a literal block with their tag. -/
def canBeBoolean (sc : Scalar) : Bool :=
  sc.style == .plain || (sc.style == .literal && sc.tag? == some Scalar.boolTag)

def boolean (s : Spot) : Decoded Bool :=
  match s.resolved with
  | .scalar _ sc =>
    match if canBeBoolean sc then Shape.boolean? sc.text else none with
    | some b => .ok b
    | none => s.mismatch "a boolean"
  | _ => s.mismatch "a boolean"

/-- Whether a scalar says that there is no value; the tag for that must stand before a word for
it. -/
def isAbsent (sc : Scalar) : Except Misfit Bool :=
  if sc.style ≠ .plain then .ok false
  else
    match sc.tag? with
    | none => .ok (sc.text.isEmpty || Shape.isNull sc.text)
    | some tag =>
      if tag ≠ Scalar.nullTag then .ok false
      else if Shape.isNull sc.text then .ok true
      else .error (.wrongValue sc.text "null")

/-- A value that may be absent. `around` is the place of the mapping. -/
def optional {α : Type} (around : Mark) (decode : Spot → Decoded α) (s : Spot) :
    Decoded (Option α) :=
  match s.resolved with
  | .scalar _ sc =>
    match isAbsent sc with
    | .ok true => .ok none
    | .ok false => (decode s).map some
    | .error m => .error (.misfit m s.path.dropLast around)
  | _ => (decode s).map some

/-- The first fault inside a node that is passed over. -/
def passOver (n : Node) : Decoded Unit :=
  match n.nodes.findSome? fun
    | .broken f => some f
    | _ => none with
  | some f => .error (.unreadable f)
  | none => .ok ()

/-- Takes the value of a field into what has been decoded so far. The mark is that of the
mapping. -/
abbrev FieldReader (σ : Type) := σ → Mark → Spot → Decoded σ

/-- The name of a field, and how it is told on the way to its value. -/
def fieldName (s : Spot) : Decoded (String × String) := do
  let name ← s.text "field identifier"
  match s.node with
  | .aliasTo .. => .ok (name, "?")
  | _ => .ok (name, name)

/-- The fields of a mapping in the order of the text. Unknown ones are passed over, known ones must
not come twice. -/
def fields {σ : Type} (known : String → Option (FieldReader σ)) (s : Spot) (start : Mark) :
    List (Node × Node) → List String → σ → Decoded σ
  | [], _, acc => .ok acc
  | (k, v) :: rest, seen, acc => do
    let (name, step) ← fieldName { s with node := k }
    match known name with
    | none =>
      passOver v
      fields known s start rest seen acc
    | some read =>
      if seen.contains name then .error (.misfit (.duplicateField name) s.path start)
      else
        let acc ← read acc start { s with node := v, path := s.path ++ [step] }
        fields known s start rest (name :: seen) acc

/-- A mapping with the fields given; nothing written is a mapping without fields. -/
def record {σ : Type} (expected : String) (known : String → Option (FieldReader σ)) (usual : σ)
    (s : Spot) : Decoded σ :=
  match s.resolved with
  | .mapping h entries => fields known s h.mark entries [] usual
  | .scalar _ sc =>
    if sc.style = .plain && sc.text.isEmpty then .ok usual else s.mismatch expected
  | _ => s.mismatch expected

end Spot

/-- The only document of a text; a text without content gives the usual value. -/
def decode {α : Type} (usual : α) (read : Spot → Decoded α) (text : String) : Decoded α := do
  let d := Document.ofText text
  match d.root? with
  | none => .ok usual
  | some root =>
    let a ← read ⟨root, root, []⟩
    match d.fault? with
    | some f => .error (.unreadable f)
    | none => if d.more then .error .manyDocuments else .ok a

end Phrasebook.Yaml
