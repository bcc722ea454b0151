import CastHub.Decimal.Shortest
/-!
# Numbers as they are written in JSON

A `Numeral` is a number's text taken apart: sign, digits before the point, digits after it,
exponent. Reading one gives

* an integer, when there is neither point nor exponent and the number fits in 64 bits, signed or
  unsigned. `-0` is no integer.
* a double otherwise. At most nineteen or twenty significant digits are used (as many as fit in 64
  bits), and a single multiplication or division by a power of ten is made, so the last bit of a
  long decimal may differ from that of the nearest double. A number too large for a double is
  refused.
-/

namespace CastHub

/-- A number's text, taken apart. -/
structure Numeral where
  negative : Bool := false
  whole : List Char
  /-- The digits after the point, if there is a point. -/
  fraction : Option (List Char) := none
  /-- Sign (`true` for minus) and digits of the exponent, if there is one. -/
  exponent : Option (Bool × List Char) := none
deriving Repr, DecidableEq

namespace Numeral

/-- The text of an integer. -/
def ofInt (n : Int) : Numeral := { negative := n < 0, whole := Nat.toDigits 10 n.natAbs }

/-- The value of a run of decimal digits. -/
def digitsValue (digits : List Char) : Nat := Nat.ofDigitChars 10 digits 0

/-- The integer that a numeral denotes, if it is one and fits in 64 bits. -/
def int? (n : Numeral) : Option Int :=
  if n.fraction.isSome || n.exponent.isSome then none
  else
    let value := digitsValue n.whole
    if n.negative then
      if 0 < value ∧ value ≤ 0x8000000000000000 then some (-(value : Int)) else none
    else if value < 0x10000000000000000 then some value else none

/-- Appends digits to a significand while it stays below `2 ^ 64`; also the digits left over. -/
def pushDigits (significand : Nat) : List Char → Nat × List Char
  | [] => (significand, [])
  | d :: ds =>
    let longer := 10 * significand + (d.toNat - '0'.toNat)
    if longer < 0x10000000000000000 then pushDigits longer ds else (significand, d :: ds)

/-- The double `10 ^ n`, for `n ≤ 308`. -/
def powerOfTen (n : Nat) : Float := Float.ofScientific 1 false n

/-- Divides by a power of ten that may be too large for a double itself. -/
def scaleDown (x : Float) (n : Nat) : Float :=
  if _h : n ≤ 308 then x / powerOfTen n
  else if x == 0 then x
  else scaleDown (x / powerOfTen 308) (n - 308)
termination_by n
decreasing_by omega

/-- The double nearest to `significand`, times `10 ^ exponent`; none if that is infinite. -/
def scaled? (significand : Nat) (exponent : Int) : Option Float :=
  let x := significand.toUInt64.toFloat
  if exponent < 0 then some (scaleDown x exponent.natAbs)
  else if exponent ≤ 308 then
    let y := x * powerOfTen exponent.natAbs
    if y.isInf then none else some y
  else if x == 0 then some x else none

/-- The double that a numeral denotes; none if it is too large. -/
def float? (n : Numeral) : Option Float :=
  let (significand, excess) := pushDigits 0 n.whole
  let fraction := n.fraction.getD []
  let (significand, unused) := pushDigits significand fraction
  let exponent : Int := (excess.length : Int) - ((fraction.length - unused.length : Nat) : Int)
  let magnitude :=
    match n.exponent with
    | none => scaled? significand exponent
    | some (minus, digits) =>
      let e := digitsValue digits
      if e < 0x80000000 then scaled? significand (if minus then exponent - e else exponent + e)
      else if significand ≠ 0 ∧ ¬ minus then none else some 0
  magnitude.map fun x => if n.negative then -x else x

/-- The sign that an exponent is written with. -/
def exponentOf (e : Int) : Option (Bool × List Char) :=
  some (e < 0, Nat.toDigits 10 e.natAbs)

/-- The text of a finite double: the shortest decimal that reads back as it. Numbers from `1e-5` up
to `1e16` are written positionally with at least one digit after the point, all others with one
digit before the point and an exponent. -/
def ofFloat (x : Float) : Numeral :=
  let b := Decimal.Binary.ofFloat x
  if b.mantissa = 0 then { negative := b.negative, whole := ['0'], fraction := some ['0'] }
  else
    let (d, k) := Decimal.shortest b
    let digits := Nat.toDigits 10 d
    -- the point stands after this many digits
    let point : Int := digits.length + k
    if 0 ≤ k ∧ point ≤ 16 then
      { negative := b.negative
        whole := digits ++ List.replicate k.toNat '0'
        fraction := some ['0'] }
    else if 0 < point ∧ point ≤ 16 then
      { negative := b.negative
        whole := digits.take point.toNat
        fraction := some (digits.drop point.toNat) }
    else if -5 < point ∧ point ≤ 0 then
      { negative := b.negative
        whole := ['0']
        fraction := some (List.replicate point.natAbs '0' ++ digits) }
    else
      { negative := b.negative
        whole := digits.take 1
        fraction := if digits.length = 1 then none else some (digits.drop 1)
        exponent := exponentOf (point - 1) }

/-- The characters of a numeral. -/
def write (n : Numeral) (rest : List Char) : List Char :=
  let exponent :=
    match n.exponent with
    | none => rest
    | some (minus, digits) => 'e' :: ((if minus then ['-'] else []) ++ digits ++ rest)
  let fraction :=
    match n.fraction with
    | none => exponent
    | some digits => '.' :: (digits ++ exponent)
  (if n.negative then ['-'] else []) ++ n.whole ++ fraction

/-- The text of an integer of 64 bits denotes that integer. -/
theorem int?_ofInt {n : Int} (low : -0x8000000000000000 ≤ n) (high : n < 0x10000000000000000) :
    (ofInt n).int? = some n := by
  have value : digitsValue (Nat.toDigits 10 n.natAbs) = n.natAbs :=
    Nat.ofDigitChars_toDigits (by decide) (by decide)
  unfold ofInt int?
  simp only [Option.isSome_none, Bool.or_self, Bool.false_eq_true, if_false, value,
    decide_eq_true_eq]
  split
  · rw [if_pos (by omega)]
    congr 1
    omega
  · rw [if_pos (by omega)]
    congr 1
    omega

end Numeral

end CastHub
