/-!
Entries of a Fluent document: messages and terms, each with a pattern and attributes. A pattern is a
list of text pieces and placeables. Comments leave no trace here.
-/

namespace Phrasebook.Fluent

/-- What a variant of a selection is chosen by; a number keeps its spelling. -/
inductive VariantKey where
  | name (id : String)
  | number (spelling : String)
  deriving DecidableEq, Repr

mutual

/-- A piece of a pattern. -/
inductive Element where
  | text (value : String)
  | placeable (content : Expression)

/-- What stands between braces. -/
inductive Expression where
  | inline (operand : Operand)
  | select (selector : Operand) (variants : List Variant)

inductive Variant where
  | mk (key : VariantKey) (isDefault : Bool) (value : List Element)

/-- A value or a reference. A string is kept as written, escapes included. -/
inductive Operand where
  | string (raw : String)
  | number (spelling : String)
  | variable (name : String)
  | message (id : String) (attribute? : Option String)
  | term (id : String) (attribute? : Option String) (arguments? : Option Arguments)
  | function (name : String) (arguments : Arguments)
  | nested (content : Expression)

/-- Arguments of a call, first those without a name. -/
inductive Arguments where
  | mk (positional : List Operand) (named : List NamedArgument)

inductive NamedArgument where
  | mk (name : String) (value : Operand)

end

abbrev Pattern := List Element

instance : Inhabited Element := ⟨.text ""⟩
instance : Inhabited Operand := ⟨.string ""⟩
instance : Inhabited Expression := ⟨.inline default⟩

structure Attribute where
  name : String
  value : Pattern

inductive EntryKind where
  | message
  | term
  deriving DecidableEq, Repr

/-- A message or a term. Both kinds have one name space; a term always has a value. -/
structure Entry where
  kind : EntryKind
  id : String
  value? : Option Pattern
  attributes : List Attribute

/-- The first attribute of that name. -/
def Entry.attribute? (e : Entry) (name : String) : Option Pattern :=
  (e.attributes.find? (·.name == name)).map (·.value)

def Entry.isMessage (e : Entry) : Bool := e.kind == .message

/-- The patterns of an entry: its value, then its attributes. -/
def Entry.patterns (e : Entry) : List Pattern :=
  e.value?.toList ++ e.attributes.map (·.value)

/-! Two patterns are the same if they are spelled the same up to layout. -/

mutual

def Element.same : Element → Element → Bool
  | .text a, .text b => a == b
  | .placeable a, .placeable b => a.same b
  | _, _ => false

def Expression.same : Expression → Expression → Bool
  | .inline a, .inline b => a.same b
  | .select s vs, .select t ws => s.same t && sameVariants vs ws
  | _, _ => false

def Variant.same : Variant → Variant → Bool
  | .mk k d p, .mk l e q => k == l && d == e && samePattern p q

def Operand.same : Operand → Operand → Bool
  | .string a, .string b => a == b
  | .number a, .number b => a == b
  | .variable a, .variable b => a == b
  | .message a x, .message b y => a == b && x == y
  | .term a x none, .term b y none => a == b && x == y
  | .term a x (some c), .term b y (some d) => a == b && x == y && c.same d
  | .function a c, .function b d => a == b && c.same d
  | .nested a, .nested b => a.same b
  | _, _ => false

def Arguments.same : Arguments → Arguments → Bool
  | .mk ps ns, .mk qs ms => sameOperands ps qs && sameNamed ns ms

def NamedArgument.same : NamedArgument → NamedArgument → Bool
  | .mk n v, .mk m w => n == m && v.same w

def samePattern : List Element → List Element → Bool
  | [], [] => true
  | a :: as, b :: bs => a.same b && samePattern as bs
  | _, _ => false

def sameVariants : List Variant → List Variant → Bool
  | [], [] => true
  | a :: as, b :: bs => a.same b && sameVariants as bs
  | _, _ => false

def sameOperands : List Operand → List Operand → Bool
  | [], [] => true
  | a :: as, b :: bs => a.same b && sameOperands as bs
  | _, _ => false

def sameNamed : List NamedArgument → List NamedArgument → Bool
  | [], [] => true
  | a :: as, b :: bs => a.same b && sameNamed as bs
  | _, _ => false

end

end Phrasebook.Fluent
