/-!
The shortest decimal that reads back as a given double. The reals that round to the double form an
interval; the coarsest power of ten with a multiple in it gives the digits, the nearest multiple is
taken, and of two equally near ones the larger.
-/

namespace Phrasebook.Decimal

/-- A positive double `mantissa * 2 ^ exponent`. `narrow` tells that its lower neighbour is half as
far away as its upper one. -/
structure Binary where
  mantissa : Nat
  exponent : Int
  narrow : Bool

/-- A decimal `coefficient * 10 ^ exponent`. -/
structure Scaled where
  coefficient : Nat
  exponent : Int
  deriving DecidableEq, Repr

/-- The magnitude in the bits of a finite double; zero has mantissa zero. -/
def Binary.ofBits (bits : Nat) : Binary :=
  let field : Nat := bits / Nat.pow 2 52 % Nat.pow 2 11
  let fraction : Nat := bits % Nat.pow 2 52
  if field = 0 then ⟨fraction, -1074, false⟩
  else ⟨Nat.pow 2 52 + fraction, (field : Int) - 1075, fraction = 0 && field > 1⟩

/-- The whole part. -/
def Binary.whole (b : Binary) : Nat :=
  b.mantissa * Nat.pow 2 b.exponent.toNat / Nat.pow 2 (-b.exponent).toNat

/-- Numerators of the double and of the ends of its interval, over a common denominator. -/
structure Interval where
  low : Nat
  value : Nat
  high : Nat
  denominator : Nat
  closed : Bool

def Binary.interval (b : Binary) : Interval :=
  let up := Nat.pow 2 (b.exponent - 2).toNat
  let down := Nat.pow 2 (2 - b.exponent).toNat
  { low := (4 * b.mantissa - if b.narrow then 1 else 2) * up
    value := 4 * b.mantissa * up
    high := (4 * b.mantissa + 2) * up
    denominator := down
    closed := b.mantissa % 2 = 0 }

/-- The number of decimal digits. -/
def digitCount (n : Nat) : Nat := (Nat.toDigits 10 n).length

/-- The best multiple of `10 ^ k` in the interval. -/
def Interval.onGrid? (t : Interval) (k : Int) : Option Scaled :=
  let up := Nat.pow 10 (-k).toNat
  let unit := t.denominator * Nat.pow 10 k.toNat
  let below := t.value * up / unit
  let isIn (c : Nat) : Bool :=
    if t.closed then t.low * up ≤ c * unit && c * unit ≤ t.high * up
    else t.low * up < c * unit && c * unit < t.high * up
  match isIn below, isIn (below + 1) with
  | true, false => some ⟨below, k⟩
  | false, true => some ⟨below + 1, k⟩
  | true, true =>
    if 2 * (t.value * up) < (2 * below + 1) * unit then some ⟨below, k⟩
    else some ⟨below + 1, k⟩
  | false, false => none

/-- A power of ten above the interval. -/
def Interval.magnitude (t : Interval) : Int :=
  if t.denominator ≤ t.high then digitCount (t.high / t.denominator)
  else 2 - (digitCount (t.denominator / t.high) : Int)

/-- The first grid with a multiple in the interval, from `10 ^ k` downwards. -/
def Interval.search (t : Interval) : Nat → Int → Scaled
  | 0, k => ⟨t.value * Nat.pow 10 (-k).toNat / (t.denominator * Nat.pow 10 k.toNat), k⟩
  | steps + 1, k => (t.onGrid? k).getD (t.search steps (k - 1))

/-- Seventeen digits are always enough, so the search stops early. -/
def shortest (b : Binary) : Scaled :=
  if b.mantissa = 0 then ⟨0, 0⟩ else b.interval.search 24 b.interval.magnitude

end Phrasebook.Decimal
