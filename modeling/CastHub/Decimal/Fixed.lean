import CastHub.Decimal.Binary
/-!
# A fixed number of decimal places

`fixed` writes a double with a given number of places after the point. The exact value is rounded
to the nearest such decimal, and a tie goes to the even neighbour.
-/

namespace CastHub.Decimal

/-- The quotient rounded to nearest, ties to even. -/
def roundedQuotient (num den : Nat) : Nat :=
  let q := num / den
  let twice := 2 * (num % den)
  if twice < den then q
  else if den < twice then q + 1
  else if q % 2 = 0 then q else q + 1

/-- A rounded quotient is within half a unit of the exact one. -/
theorem roundedQuotient_near {num den : Nat} (hden : 0 < den) :
    2 * num ≤ (2 * roundedQuotient num den + 1) * den ∧
      2 * roundedQuotient num den * den ≤ 2 * num + den := by
  have hdiv := Nat.div_add_mod num den
  have hlt := Nat.mod_lt num hden
  generalize hq : num / den = q at hdiv
  generalize hr : num % den = r at hdiv hlt
  have hmul : den * q = q * den := Nat.mul_comm _ _
  unfold roundedQuotient
  simp only [hq, hr]
  split
  · constructor
    · rw [Nat.add_mul, Nat.mul_assoc]; omega
    · rw [Nat.mul_assoc]; omega
  · split
    · constructor
      · rw [Nat.add_mul, Nat.mul_assoc, Nat.add_mul]; omega
      · rw [Nat.mul_assoc, Nat.add_mul]; omega
    · split
      · constructor
        · rw [Nat.add_mul, Nat.mul_assoc]; omega
        · rw [Nat.mul_assoc]; omega
      · constructor
        · rw [Nat.add_mul, Nat.mul_assoc, Nat.add_mul]; omega
        · rw [Nat.mul_assoc, Nat.add_mul]; omega

/-- Digits of `n`, at least `width` of them. -/
def paddedDigits (width n : Nat) : List Char :=
  let digits := Nat.toDigits 10 n
  List.replicate (width - digits.length) '0' ++ digits

/-- A double with `places` digits after the point. -/
def fixed (places : Nat) (x : Float) : String :=
  let b := Binary.ofFloat x
  let units := roundedQuotient (b.numerator * Nat.pow 10 places) b.denominator
  let digits := paddedDigits (places + 1) units
  let whole := digits.take (digits.length - places)
  let fraction := digits.drop (digits.length - places)
  let sign := if b.negative then ['-'] else []
  String.ofList (sign ++ whole ++ (if places = 0 then [] else '.' :: fraction))

end CastHub.Decimal
