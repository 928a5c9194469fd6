import Phrasebook.Decimal.Scientific
import Phrasebook.Text.Quoted
import Phrasebook.Yaml.Node

/-!
What a node stands for: nothing, a truth value, a number, a text, a list or a map.
-/

namespace Phrasebook.Yaml

inductive Shape where
  | unit
  | boolean (b : Bool)
  | integer (n : Int)
  | float (x : Float)
  | string (s : String)
  | sequence
  | map

namespace Shape

/-- Always with a point, unless it is no finite number. -/
def floatText (x : Float) : String :=
  let p := Decimal.Positional.ofFloat x
  (if x.isFinite then p.pad 1 else p).text

/-- Integers beyond 64 bits are told with their width. -/
def integerText (n : Int) : String :=
  let wide :=
    if (Nat.pow 2 64 : Int) ≤ n then " as u128"
    else if n < -(Nat.pow 2 63 : Int) then " as i128"
    else ""
  "integer \x60" ++ toString n ++ "\x60" ++ wide

def text : Shape → String
  | unit => "unit value"
  | boolean b => "boolean \x60" ++ (if b then "true" else "false") ++ "\x60"
  | integer n => integerText n
  | float x => "floating point \x60" ++ floatText x ++ "\x60"
  | string s => "string " ++ Text.quoted s
  | sequence => "sequence"
  | map => "map"

/-! ### Plain scalars -/

def isNull (s : String) : Bool := ["null", "Null", "NULL", "~"].contains s

def boolean? (s : String) : Option Bool :=
  if ["true", "True", "TRUE"].contains s then some true
  else if ["false", "False", "FALSE"].contains s then some false
  else none

def isSign (c : Char) : Bool := c == '+' || c == '-'

/-- More than one digit, the first a zero: no number. -/
def isPaddedDigits (cs : List Char) : Bool :=
  let ds := match cs with
    | c :: r => if isSign c then r else cs
    | [] => []
  1 < ds.length && ds.head? == some '0' && ds.all Char.isDigit

/-- Digits of a base, at least one. -/
def inBase? (base : Nat) (cs : List Char) : Option Nat :=
  let value (c : Char) : Nat :=
    if c.isDigit then c.toNat - '0'.toNat
    else if c.isAlpha then c.toLower.toNat - 'a'.toNat + 10
    else base
  if cs.isEmpty || !cs.all (value · < base) then none
  else some (cs.foldl (fun n c => base * n + value c) 0)

/-- Digits after a sign for their base, or decimal digits. -/
def magnitude? (cs : List Char) : Option Nat :=
  match cs with
  | '0' :: 'x' :: r => inBase? 16 r
  | '0' :: 'o' :: r => inBase? 8 r
  | '0' :: 'b' :: r => inBase? 2 r
  | _ => if isPaddedDigits cs then none else inBase? 10 cs

/-- A whole number of at most 128 bits. -/
def integer? (cs : List Char) : Option Int :=
  match cs with
  | '-' :: r => (magnitude? r).bind fun n => if n ≤ Nat.pow 2 127 then some (-(n : Int)) else none
  | '+' :: r => (magnitude? r).bind fun n => if n < Nat.pow 2 128 then some n else none
  | _ => (magnitude? cs).bind fun n => if n < Nat.pow 2 128 then some n else none

def float? (s : String) : Option Float :=
  if [".inf", ".Inf", ".INF", "+.inf", "+.Inf", "+.INF"].contains s then some (1 / 0)
  else if ["-.inf", "-.Inf", "-.INF"].contains s then some (-1 / 0)
  else if [".nan", ".NaN", ".NAN"].contains s then some (0 / 0)
  else Decimal.finite? s.toList

/-- What a plain scalar without tag stands for. -/
def ofPlain (s : String) : Shape :=
  if s.isEmpty || isNull s then unit
  else
    match boolean? s, integer? s.toList with
    | some b, _ => boolean b
    | none, some n => integer n
    | none, none =>
      match if isPaddedDigits s.toList then none else float? s with
      | some x => float x
      | none => string s

end Shape

/-! ### Tags -/

namespace Scalar

def boolTag : String := "tag:yaml.org,2002:bool"
def intTag : String := "tag:yaml.org,2002:int"
def floatTag : String := "tag:yaml.org,2002:float"
def nullTag : String := "tag:yaml.org,2002:null"

/-- What a scalar stands for; if it is not what its tag says, what it should have been. -/
def shape (s : Scalar) : Except String Shape :=
  let own := if s.style = .plain then Shape.ofPlain s.text else .string s.text
  match s.tag? with
  | none => .ok own
  | some tag =>
    if tag = boolTag then ((Shape.boolean? s.text).map (.ok ∘ .boolean)).getD (.error "a boolean")
    else if tag = intTag then
      ((Shape.integer? s.text.toList).map (.ok ∘ .integer)).getD (.error "an integer")
    else if tag = floatTag then
      ((Shape.float? s.text).map (.ok ∘ .float)).getD (.error "a float")
    else if tag = nullTag then if Shape.isNull s.text then .ok .unit else .error "null"
    else if tag.startsWith "!" then .ok own
    else .ok (.string s.text)

end Scalar
end Phrasebook.Yaml
