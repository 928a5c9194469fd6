import Phrasebook.Decimal.Shortest

/-!
Doubles as digits before and after a point, without exponent.
-/

namespace Phrasebook.Decimal

structure Positional where
  negative : Bool
  whole : List Char
  fraction : List Char
  deriving DecidableEq, Repr

/-- The digits of a decimal. -/
def Scaled.digits (s : Scaled) : List Char × List Char :=
  let ds := Nat.toDigits 10 s.coefficient
  if 0 ≤ s.exponent then (ds ++ List.replicate s.exponent.toNat '0', [])
  else
    let places := (-s.exponent).toNat
    let ds := List.replicate (places + 1 - ds.length) '0' ++ ds
    (ds.take (ds.length - places), ds.drop (ds.length - places))

/-- The shortest digits of a double; infinities and the rest have a name in place of digits. -/
def Positional.ofFloat (x : Float) : Positional :=
  let bits := x.toBits.toNat
  let negative := bits / Nat.pow 2 63 = 1
  if bits / Nat.pow 2 52 % Nat.pow 2 11 = Nat.pow 2 11 - 1 then
    if bits % Nat.pow 2 52 = 0 then ⟨negative, ['i', 'n', 'f'], []⟩
    else ⟨false, ['N', 'a', 'N'], []⟩
  else
    let (whole, fraction) := (shortest (Binary.ofBits bits)).digits
    ⟨negative, whole, fraction⟩

/-- The whole part of a double without its sign, but no more than a limit. An infinity reaches any
limit, and what is no number has nothing. -/
def wholePart (x : Float) (limit : Nat) : Nat :=
  let bits := x.toBits.toNat
  if bits / Nat.pow 2 52 % Nat.pow 2 11 = Nat.pow 2 11 - 1 then
    if bits % Nat.pow 2 52 = 0 then limit else 0
  else min (Binary.ofBits bits).whole limit

/-- At least so many digits after the point. -/
def Positional.pad (p : Positional) (places : Nat) : Positional :=
  { p with fraction := p.fraction ++ List.replicate (places - p.fraction.length) '0' }

def Positional.text (p : Positional) : String :=
  String.ofList ((if p.negative then ['-'] else []) ++ p.whole ++
    if p.fraction.isEmpty then [] else '.' :: p.fraction)

/-- The number that a run of digits spells. -/
def ofDigits (ds : List Char) : Nat := ds.foldl (fun n c => 10 * n + (c.toNat - '0'.toNat)) 0

/-- The double nearest to a decimal with an optional sign and an optional point. -/
def readFloat (spelling : String) : Float :=
  let cs := spelling.toList
  let (negative, cs) := match cs with
    | '-' :: r => (true, r)
    | _ => (false, cs)
  let whole := cs.takeWhile Char.isDigit
  let part := (cs.dropWhile Char.isDigit).drop 1
  let x := Float.ofScientific (ofDigits (whole ++ part)) true part.length
  if negative then -x else x

end Phrasebook.Decimal
