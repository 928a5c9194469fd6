import Phrasebook.Decimal.Positional
import Phrasebook.Locale.Plural

/-!
Values of arguments and selectors, and named arguments.
-/

namespace Phrasebook.Fluent

open Decimal

/-- A number; `places?` is the least count of digits after the point that it is shown with. -/
structure Number where
  value : Float
  places? : Option Nat

namespace Number

/-- The number of a literal, which is shown with as many places as it was written with. -/
def ofSpelling (spelling : String) : Number :=
  let part := spelling.toList.dropWhile (· != '.')
  ⟨readFloat spelling, if part.isEmpty then none else some (part.length - 1)⟩

def digits (n : Number) : Positional :=
  match n.places? with
  | none => .ofFloat n.value
  | some places => (Positional.ofFloat n.value).pad places

def text (n : Number) : String := n.digits.text

/-- Equal in value and in least places. -/
def same (m n : Number) : Bool := m.value == n.value && m.places? == n.places?

def wordSize : Nat := Nat.pow 2 64

/-- The operands of the plural rules. The whole part is held in a word and stops at its end; places
that were only asked for count as zeros. -/
def operands (n : Number) : Plural.Operands :=
  let part := (Positional.ofFloat n.value).fraction
  let extra := (n.places?.getD 0) - part.length
  { isNumber := !n.value.isNaN
    i := wholePart n.value (wordSize - 1)
    v := part.length + extra
    f := ofDigits part * Nat.pow 10 extra % wordSize
    t := ofDigits (part.reverse.dropWhile (· == '0')).reverse }

end Number

inductive Value where
  | string (s : String)
  | number (n : Number)
  /-- Present, but shown as nothing. -/
  | absent
  /-- What could not be resolved. -/
  | error

/-- How a value is written into a text. -/
def Value.text : Value → String
  | string s => s
  | number n => n.text
  | absent | error => ""

/-- Named arguments, each name once. -/
abbrev ArgumentSet := List (String × Value)

namespace ArgumentSet

def get? (args : ArgumentSet) (name : String) : Option Value :=
  (args.find? (·.1 == name)).map (·.2)

/-- Sets an argument; an earlier value of the name is replaced where it stands. -/
def set (args : ArgumentSet) (name : String) (value : Value) : ArgumentSet :=
  if args.any (·.1 == name) then args.map fun a => if a.1 == name then (name, value) else a
  else args ++ [(name, value)]

/-- Sets all pairs in turn. -/
def ofPairs (pairs : List (String × Value)) : ArgumentSet :=
  pairs.foldl (fun args p => args.set p.1 p.2) []

end ArgumentSet

end Phrasebook.Fluent
