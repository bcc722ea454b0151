import CastHub.Decimal.Binary
/-!
# The shortest decimal that reads back

`shortest` finds, for a positive double, the decimal `digits · 10 ^ exponent` with the fewest digits
among those that lie in the interval of reals that round to the double; of several with that many
digits it takes the nearest. The search tries one digit, two digits, and so on: if a decimal grid
meets the interval at all, one of the two neighbours of the double on that grid lies inside.
-/

namespace CastHub.Decimal

/-- The interval of reals that round to a double, in quarters of its last binary place, together
with the double itself. The ends belong to the interval iff `closed`. -/
structure Interval where
  low : Nat
  value : Nat
  high : Nat
  closed : Bool
  /-- One unit stands for `2 ^ exponent`. -/
  exponent : Int
deriving Repr

/-- The interval around a positive double. Below a power of two the grid is twice as fine. -/
def Interval.of (b : Binary) : Interval :=
  let narrow := b.mantissa = 0x10000000000000 ∧ b.exponent ≠ -1074
  { low := 4 * b.mantissa - (if narrow then 1 else 2)
    value := 4 * b.mantissa
    high := 4 * b.mantissa + 2
    closed := b.mantissa % 2 = 0
    exponent := b.exponent - 2 }

/-- What `10 ^ k` weighs on the scale on which the interval's unit weighs `unitWeight`. -/
def gridWeight (i : Interval) (k : Int) : Nat := Nat.pow 10 k.toNat * Nat.pow 2 (-i.exponent).toNat

/-- What one unit of the interval weighs on the scale of `gridWeight`. -/
def unitWeight (i : Interval) (k : Int) : Nat := Nat.pow 10 (-k).toNat * Nat.pow 2 i.exponent.toNat

/-- Whether `d · 10 ^ k` lies in the interval. -/
def Interval.contains (i : Interval) (k : Int) (d : Nat) : Bool :=
  let x := d * gridWeight i k
  let u := unitWeight i k
  if i.closed then i.low * u ≤ x && x ≤ i.high * u else i.low * u < x && x < i.high * u

/-- The better neighbour on the grid `10 ^ k`, if any neighbour lies in the interval. -/
def Interval.neighbour? (i : Interval) (k : Int) : Option Nat :=
  let g := gridWeight i k
  let v := i.value * unitWeight i k
  let below := v / g
  match i.contains k below, i.contains k (below + 1) with
  | false, false => none
  | true, false => some below
  | false, true => some (below + 1)
  | true, true =>
    let twice := 2 * (v % g)
    if twice < g then some below
    else if g < twice then some (below + 1)
    else if below % 2 = 0 then some below else some (below + 1)

/-- The place of the first digit of a positive double: the greatest `e` with `10 ^ e` not above. -/
def leadingPlace (b : Binary) : Int :=
  let scaled := b.numerator * Nat.pow 10 400 / b.denominator
  ((Nat.toDigits 10 scaled).length : Int) - 401

/-- Drops the zeros at the end of a decimal, moving them into the exponent. -/
def trimZeros : Nat → Nat → Int → Nat × Int
  | 0, d, k => (d, k)
  | fuel + 1, d, k => if d ≠ 0 ∧ d % 10 = 0 then trimZeros fuel (d / 10) (k + 1) else (d, k)

/-- The shortest decimal `d · 10 ^ k` that rounds to a positive double: seventeen digits always
suffice. -/
def shortest (b : Binary) : Nat × Int :=
  let i := Interval.of b
  let place := leadingPlace b
  let tries := (List.range 17).map fun (n : Nat) => place - n
  match tries.findSome? fun k => (i.neighbour? k).map (·, k) with
  | some (d, k) => trimZeros 20 d k
  | none => (0, 0)

end CastHub.Decimal
