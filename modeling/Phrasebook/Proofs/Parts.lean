import Phrasebook.Document
import Phrasebook.Fluent.Resolver

/-!
What stands in a pattern, however deep: its texts and strings, what it refers to, what it selects by
and what it hands to terms. Statements about all of a document go over these parts.
-/

namespace Phrasebook

namespace Fluent

inductive Part where
  | text (value : String)
  /-- A string as it is written. -/
  | string (raw : String)
  | reference (r : Reference)
  /-- What a variant is chosen by. -/
  | selector (o : Operand)
  /-- What a term is given for a name. -/
  | given (name : String) (o : Operand)

/-- The named arguments of a call. -/
def Arguments.given : Arguments → List Part
  | .mk _ named => named.map fun | .mk name o => .given name o

mutual

def Element.parts : Element → List Part
  | .text value => [.text value]
  | .placeable content => content.parts

def Expression.parts : Expression → List Part
  | .inline operand => operand.parts
  | .select selector variants => .selector selector :: (selector.parts ++ partsOfVariants variants)

def Operand.parts : Operand → List Part
  | .string raw => [.string raw]
  | .number _ => []
  | .variable name => [.reference (.variable name)]
  | .message id attribute? => [.reference (.message id attribute?)]
  | .term id attribute? none => [.reference (.term id attribute?)]
  | .term id attribute? (some arguments) =>
    .reference (.term id attribute?) :: (arguments.given ++ arguments.parts)
  | .function name arguments => .reference (.function name) :: arguments.parts
  | .nested content => content.parts

def Arguments.parts : Arguments → List Part
  | .mk positional named => partsOfOperands positional ++ partsOfNamed named

def partsOfPattern : List Element → List Part
  | [] => []
  | e :: es => e.parts ++ partsOfPattern es

def partsOfVariants : List Variant → List Part
  | [] => []
  | .mk _ _ value :: vs => partsOfPattern value ++ partsOfVariants vs

def partsOfOperands : List Operand → List Part
  | [] => []
  | o :: os => o.parts ++ partsOfOperands os

def partsOfNamed : List NamedArgument → List Part
  | [] => []
  | .mk _ o :: ns => o.parts ++ partsOfNamed ns

end

def Entry.parts (e : Entry) : List Part := e.patterns.flatMap partsOfPattern

/-- What a reference to an entry asks for: the attribute it names, else the value. -/
def Entry.asked? (e : Entry) : Option String → Option Pattern
  | some a => e.attribute? a
  | none => e.value?

theorem Entry.mem_parts_of_asked? {e : Entry} {attribute? : Option String} {p : Pattern}
    (asked : e.asked? attribute? = some p) {part : Part} (member : part ∈ partsOfPattern p) :
    part ∈ e.parts := by
  suffices inEntry : p ∈ e.patterns from List.mem_flatMap.mpr ⟨p, inEntry, member⟩
  cases attribute? with
  | some a =>
    obtain ⟨x, found, rfl⟩ := Option.map_eq_some_iff.mp asked
    apply List.mem_append_right
    exact List.mem_map_of_mem (List.mem_of_find?_eq_some found)
  | none =>
    apply List.mem_append_left
    exact Option.mem_toList.mpr asked

end Fluent

def Document.parts (d : Document) : List Fluent.Part := d.entries.flatMap (·.parts)

def partsOf (ds : List Document) : List Fluent.Part := ds.flatMap (·.parts)

end Phrasebook
