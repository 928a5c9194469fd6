import Phrasebook.Decimal.Positional

/-!
Decimals with a point and an exponent, read as the nearest double.
-/

namespace Phrasebook.Decimal

/-- An exponent: an optional sign and digits up to the end. -/
def exponent? (cs : List Char) : Option Int :=
  let (negative, ds) := match cs with
    | '-' :: r => (true, r)
    | '+' :: r => (false, r)
    | _ => (false, cs)
  if ds.isEmpty || !ds.all Char.isDigit then none
  else some (if negative then -(ofDigits ds : Int) else ofDigits ds)

/-- The double nearest to `n * 10 ^ e`. Far outside the range of doubles no power is computed. -/
def nearestDouble (n : Nat) (e : Int) : Float :=
  let magnitude : Int := digitCount n + e
  if n = 0 || magnitude < -400 then 0
  else if 400 < magnitude then 1 / 0
  else if 0 ≤ e then Float.ofScientific (n * Nat.pow 10 e.toNat) false 0
  else Float.ofScientific n true (-e).toNat

/-- A decimal without sign: digits with a point before, between or after them, and an exponent. -/
def unsigned? (cs : List Char) : Option Float := do
  let whole := cs.takeWhile Char.isDigit
  let (part, rest) := match cs.drop whole.length with
    | '.' :: r => (r.takeWhile Char.isDigit, r.dropWhile Char.isDigit)
    | r => ([], r)
  let e ← match rest with
    | [] => some 0
    | c :: r => if c = 'e' || c = 'E' then exponent? r else none
  if whole.isEmpty && part.isEmpty then none
  else some (nearestDouble (ofDigits (whole ++ part)) (e - part.length))

/-- What a reader makes of a text after its optional sign. -/
def withSign? (reader : List Char → Option Float) : List Char → Option Float
  | '-' :: r => (reader r).map (-·)
  | '+' :: r => reader r
  | cs => reader cs

/-- A decimal with an optional sign, if it is in the range of doubles. -/
def finite? (cs : List Char) : Option Float := do
  let x ← withSign? unsigned? cs
  if x.isFinite then some x else none

/-- What is no decimal but has a name, in small or capital letters. -/
def named? (cs : List Char) : Option Float :=
  match String.ofList (cs.map Char.toLower) with
  | "inf" | "infinity" => some (1 / 0)
  | "nan" => some (0 / 0)
  | _ => none

/-- A double with an optional sign. Decimals beyond the range of doubles are infinite. -/
def double? (cs : List Char) : Option Float := withSign? (fun cs => unsigned? cs <|> named? cs) cs

end Phrasebook.Decimal
