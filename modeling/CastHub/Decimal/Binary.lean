/-!
# Floating-point numbers as exact fractions

A finite double is `± mantissa · 2 ^ exponent` with a natural mantissa. Everything that is written
about a double in decimal is computed from that form in exact arithmetic.
-/

namespace CastHub.Decimal

/-- The exact value of a finite double. -/
structure Binary where
  negative : Bool
  mantissa : Nat
  exponent : Int
deriving Repr, DecidableEq

namespace Binary

/-- Takes a finite double apart; infinities and non-numbers give meaningless parts. -/
def ofFloat (x : Float) : Binary :=
  let bits := x.toBits.toNat
  let negative := bits / 0x8000000000000000 = 1
  let biased : Nat := bits / 0x10000000000000 % 0x800
  let fraction : Nat := bits % 0x10000000000000
  if biased = 0 then ⟨negative, fraction, -1074⟩
  else ⟨negative, fraction + 0x10000000000000, (biased : Int) - 1075⟩

/-- The numerator of the absolute value over `denominator`. -/
def numerator (b : Binary) : Nat := b.mantissa * Nat.pow 2 b.exponent.toNat

/-- The denominator of the absolute value, a power of two. -/
def denominator (b : Binary) : Nat := Nat.pow 2 (-b.exponent).toNat

end Binary

end CastHub.Decimal
