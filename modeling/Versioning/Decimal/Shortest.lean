import Versioning.Decimal.Binary64

/-!
# Shortest decimal text

A binary number is written with the fewest decimal digits that read back as that
number and, of those, with the digits nearest to it. The decimals that read back
are those between the midpoints to the two neighbouring numbers, midpoints
included if the mantissa is even. For one digit, two digits, and so on, the two
decimals with that many digits next to the number are tried in turn, so the first
that read back are the shortest.

`Binary64.text` writes the digits positionally when the number is neither very
small nor very large, and with an exponent otherwise.
-/

namespace Versioning.Binary64

/-- The decimals between which `mantissa * 2 ^ exponent` is the nearest number of the format, as
    whole multiples of `2 ^ (exponent - 2)`: the lower end, the number, the upper end. -/
def interval (mantissa : Nat) (exponent : Int) : Nat × Nat × Nat :=
  let gap := if mantissa = Nat.pow 2 52 && minExponent < exponent then 1 else 2
  (4 * mantissa - gap, 4 * mantissa, 4 * mantissa + 2)

/-- The number `n * 2 ^ e`, over the denominator `10 ^ k` if `k` is negative. -/
def overPower (n : Nat) (e k : Int) : Nat × Nat :=
  let (num, den) := scaled n e
  if 0 ≤ k then (num, den * Nat.pow 10 k.toNat) else (num * Nat.pow 10 (-k).toNat, den)

/-- The multiple of `10 ^ k` next to the number that lies in its interval, if there is one: the
    nearer one of two, the larger one if they are equally near. -/
def onGrid? (mantissa : Nat) (exponent k : Int) : Option Nat :=
  let (low, mid, high) := interval mantissa exponent
  let (midNum, den) := overPower mid (exponent - 2) k
  let (lowNum, _) := overPower low (exponent - 2) k
  let (highNum, _) := overPower high (exponent - 2) k
  let inside (d : Nat) : Bool :=
    if mantissa % 2 = 0 then lowNum ≤ d * den && d * den ≤ highNum
    else lowNum < d * den && d * den < highNum
  let below := midNum / den
  let above := below + 1
  match inside below, inside above with
  | true, true => some (if 2 * midNum < (below + above) * den then below else above)
  | true, false => some below
  | false, true => some above
  | false, false => none

/-- The number of decimal digits before the point of `mantissa * 2 ^ exponent`; zero or less for
    a number below one. -/
def magnitude (mantissa : Nat) (exponent : Int) : Int :=
  let (num, den) := scaled mantissa exponent
  if den ≤ num then (Nat.toDigits 10 (num / den)).length
  else
    -- The least power of ten that lifts the number to one or more.
    let power := (List.range 400).find? fun p => den ≤ num * Nat.pow 10 p
    1 - (power.getD 400 : Int)

/-- The shortest digits `d` and the power `k` such that `d * 10 ^ k` reads back as the number;
    the counts of digits from `count` on are tried. -/
def shortestFrom (mantissa : Nat) (exponent : Int) : (fuel count : Nat) → Nat × Int
  | 0, _ => (0, 0)
  | fuel + 1, count =>
    let k := magnitude mantissa exponent - count
    match onGrid? mantissa exponent k with
    | some d => (d, k)
    | none => shortestFrom mantissa exponent fuel (count + 1)

/-- Moves trailing zeros of the digits into the power. -/
def withoutZeros : (fuel : Nat) → Nat → Int → Nat × Int
  | 0, d, k => (d, k)
  | fuel + 1, d, k =>
    if d % 10 = 0 && d != 0 then withoutZeros fuel (d / 10) (k + 1) else (d, k)

/-- How the digits of a number are laid out. -/
structure Layout where
  /-- The least power of ten of the first digit that is written positionally. -/
  least : Int
  /-- The greatest power of ten of the first digit that is written positionally. -/
  greatest : Int

/-- Numbers from `1e-4` up to below `1e16` are written positionally. -/
def layout : Layout :=
  ⟨-4, 15⟩

/-- The digits with a point before the last `-k` of them, and at least one on either side. -/
def positional (digits : List Char) (k : Int) : List Char :=
  if 0 ≤ k then digits ++ List.replicate k.toNat '0' ++ ['.', '0']
  else
    let places := (-k).toNat
    let padded := List.replicate (places + 1 - digits.length) '0' ++ digits
    padded.take (padded.length - places) ++ '.' :: padded.drop (padded.length - places)

/-- The digits with a point after the first one, and the power of ten that this one stands for. -/
def exponential (digits : List Char) (power : Int) : List Char :=
  let mantissa := match digits with
    | first :: [] => [first]
    | first :: rest => first :: '.' :: rest
    | [] => []
  mantissa ++ 'e' :: (toString power).toList

/-- The text of a number. -/
def text : Binary64 → String
  | .undefined => "NaN"
  | .infinite negative => if negative then "-inf" else "inf"
  | .finite negative mantissa exponent =>
    let sign := if negative then "-" else ""
    if mantissa = 0 then sign ++ "0.0"
    else
      let (d, k) := shortestFrom mantissa exponent 17 1
      let (d, k) := withoutZeros 20 d k
      let digits := Nat.toDigits 10 d
      let power := k + digits.length - 1
      sign ++ String.ofList (if layout.least ≤ power && power ≤ layout.greatest then
        positional digits k else exponential digits power)

end Versioning.Binary64
