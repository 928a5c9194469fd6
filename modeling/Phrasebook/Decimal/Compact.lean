import Phrasebook.Decimal.Positional

/-!
Doubles in few characters: positional between `1e-5` and `1e16`, with an exponent outside.
-/

namespace Phrasebook.Decimal

/-- Always with a point or an exponent. -/
def compactDigits (s : Scaled) : List Char :=
  let ds := Nat.toDigits 10 s.coefficient
  let point : Int := ds.length + s.exponent
  if 0 ≤ s.exponent && point ≤ 16 then
    ds ++ List.replicate s.exponent.toNat '0' ++ ['.', '0']
  else if 0 < point && point ≤ 16 then ds.take point.toNat ++ '.' :: ds.drop point.toNat
  else if -5 < point && point ≤ 0 then
    '0' :: '.' :: List.replicate (-point).toNat '0' ++ ds
  else
    let e := (toString (point - 1)).toList
    match ds with
    | [d] => d :: 'e' :: e
    | d :: r => d :: '.' :: r ++ 'e' :: e
    | [] => []

/-- A finite double. -/
def compact (x : Float) : String :=
  let bits := x.toBits.toNat
  let sign := if bits / Nat.pow 2 63 = 1 then ['-'] else []
  String.ofList (sign ++ compactDigits (shortest (Binary.ofBits bits)))

end Phrasebook.Decimal
