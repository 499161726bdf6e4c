/-!
# Binary floating-point numbers

The numbers of a 64-bit binary format: a sign and a whole number below `2^53` times a
power of two, the infinities and the undefined value. Everything is computed on
whole numbers, so nothing is rounded but where rounding is meant.

* `Binary64.ofDecimal` is the number nearest to a decimal one, ties going to the even
  neighbour.
-/

namespace Versioning

/-- A number of the format. A finite one is `mantissa * 2 ^ exponent`, where the mantissa has 53
    bits unless the exponent is the least one. -/
inductive Binary64 where
  | finite (negative : Bool) (mantissa : Nat) (exponent : Int)
  | infinite (negative : Bool)
  | undefined
  deriving DecidableEq, Repr

namespace Binary64

/-- The least exponent. -/
def minExponent : Int := -1074

/-- The greatest exponent. -/
def maxExponent : Int := 971

/-- The quotient to the nearest whole number, ties going to the even neighbour. -/
def roundDiv (num den : Nat) : Nat :=
  let quotient := num / den
  let twice := 2 * (num % den)
  if twice < den then quotient
  else if den < twice then quotient + 1
  else quotient + quotient % 2

/-- `n * 2 ^ e` as a quotient. -/
def scaled (n : Nat) (e : Int) : Nat × Nat :=
  if 0 ≤ e then (n * Nat.pow 2 e.toNat, 1) else (n, Nat.pow 2 (-e).toNat)

/-- The finite number with the given exponent that is nearest to `num / den`; a mantissa that
    grows to 54 bits by rounding is halved, and one beyond the format is infinite. -/
def nearest (negative : Bool) (num den : Nat) (exponent : Int) : Binary64 :=
  let (up, down) := scaled 1 (-exponent)
  let mantissa := roundDiv (num * up) (den * down)
  let (mantissa, exponent) :=
    if mantissa = Nat.pow 2 53 then (Nat.pow 2 52, exponent + 1) else (mantissa, exponent)
  if maxExponent < exponent then .infinite negative else .finite negative mantissa exponent

/-- The number nearest to the fraction `num / den`. -/
def ofFraction (negative : Bool) (num den : Nat) : Binary64 :=
  if num = 0 then .finite negative 0 minExponent
  else
    -- With this exponent the quotient has 53 or 54 bits; in the second case the next one is right.
    let guess : Int := (Nat.log2 num : Int) - Nat.log2 den - 53
    let (up, down) := scaled 1 (-guess)
    let exponent := if num * up / (den * down) < Nat.pow 2 53 then guess else guess + 1
    nearest negative num den (max exponent minExponent)

/-- The number nearest to `digits * 10 ^ power`. -/
def ofDecimal (negative : Bool) (digits : Nat) (power : Int) : Binary64 :=
  let size : Int := (Nat.toDigits 10 digits).length + power
  if digits = 0 || size < -400 then .finite negative 0 minExponent
  else if 400 < size then .infinite negative
  else if 0 ≤ power then ofFraction negative (digits * Nat.pow 10 power.toNat) 1
  else ofFraction negative digits (Nat.pow 10 (-power).toNat)

end Binary64

end Versioning
