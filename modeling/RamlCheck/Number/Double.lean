/-!
# Numbers of double precision

A `Double` is a number of the binary interchange format with 53 bits of
precision, held as a sign, a significand and a power of two, so that every
operation on it is exact arithmetic on natural numbers followed by one rounding.

## Strategy

Rounding takes a quotient of natural numbers and picks the power of two for
which the significand has 53 bits (or the least power there is), divides with
ties to even, and overflows to an infinity.  Reading decimal text, multiplying
and dividing all go through it.
-/

namespace RamlCheck

/-- A double-precision number.  A finite one is `significand · 2 ^ exponent`,
negated when `negative`; its significand is below `2 ^ 53`, and is at least
`2 ^ 52` unless the exponent is the least one, `-1074`. -/
inductive Double
  | finite (negative : Bool) (significand : Nat) (exponent : Int)
  | infinite (negative : Bool)
  | nan
  deriving DecidableEq, Repr, Inhabited

namespace Double

/-- The least power of two in a finite number. -/
def leastExponent : Int := -1074

/-- The greatest power of two in a finite number. -/
def greatestExponent : Int := 971

/-- Zero, with its sign. -/
def zero (negative : Bool) : Double :=
  .finite negative 0 leastExponent

/-- A quotient rounded to the nearest natural number, a tie going to the even
one. -/
def divideToEven (numerator denominator : Nat) : Nat :=
  let quotient := numerator / denominator
  let doubled := 2 * (numerator % denominator)
  if doubled < denominator then quotient
  else if denominator < doubled then quotient + 1
  else quotient + quotient % 2

/-- The quotient of two numbers over a power of two, as a quotient again. -/
def scale (numerator denominator : Nat) (exponent : Int) : Nat × Nat :=
  if exponent < 0 then (numerator * Nat.pow 2 exponent.natAbs, denominator)
  else (numerator, denominator * Nat.pow 2 exponent.natAbs)

/-- The power of two for which a positive quotient has a significand of 53
bits, or the least one. -/
def exponentOf (numerator denominator : Nat) : Int :=
  let guess : Int := (numerator.log2 : Int) - denominator.log2 - 52
  let scaled := scale numerator denominator guess
  let exact := if scaled.1 < scaled.2 * Nat.pow 2 52 then guess - 1 else guess
  max exact leastExponent

/-- The number nearest to a quotient, with a sign. -/
def ofRatio (negative : Bool) (numerator denominator : Nat) : Double :=
  if numerator = 0 then zero negative
  else
    let exponent := exponentOf numerator denominator
    let scaled := scale numerator denominator exponent
    let significand := divideToEven scaled.1 scaled.2
    let carried := significand = Nat.pow 2 53
    let significand := if carried then Nat.pow 2 52 else significand
    let exponent := if carried then exponent + 1 else exponent
    if greatestExponent < exponent then .infinite negative
    else .finite negative significand exponent

/-- The number nearest to `digits · 10 ^ power`, with a sign.  Powers far outside
the range are answered without computing them. -/
def ofDecimal (negative : Bool) (digits : Nat) (power : Int) : Double :=
  if digits = 0 then zero negative
  else if 400 < power + digits.log2 / 3 ∧ 0 < power then .infinite negative
  else if power + digits.log2 / 3 < -400 then zero negative
  else if power < 0 then ofRatio negative digits (Nat.pow 10 power.natAbs)
  else ofRatio negative (digits * Nat.pow 10 power.natAbs) 1

/-- The number nearest to a natural number. -/
def ofNat (value : Nat) : Double :=
  ofRatio false value 1

/-- Whether a number is neither infinite nor undefined. -/
def isFinite : Double → Bool
  | .finite .. => true
  | _ => false

/-- The same number with the sign turned round when `negative`. -/
def withSign (negative : Bool) : Double → Double
  | .finite sign significand exponent => .finite (sign ^^ negative) significand exponent
  | .infinite sign => .infinite (sign ^^ negative)
  | .nan => .nan

/-- The absolute value of a finite number as a quotient. -/
def toRatio (significand : Nat) (exponent : Int) : Nat × Nat :=
  if exponent < 0 then (significand, Nat.pow 2 exponent.natAbs)
  else (significand * Nat.pow 2 exponent.natAbs, 1)

/-- The product of a number and a power of ten that is itself a rounded number.
Only finite factors are multiplied. -/
def times : Double → Double → Double
  | .finite sign significand exponent, .finite sign' significand' exponent' =>
      let left := toRatio significand exponent
      let right := toRatio significand' exponent'
      ofRatio (sign ^^ sign') (left.1 * right.1) (left.2 * right.2)
  | left, _ => left

/-- The quotient of a number and a power of ten that is itself a rounded
number.  Only finite numbers are divided. -/
def dividedBy : Double → Double → Double
  | .finite sign significand exponent, .finite sign' significand' exponent' =>
      let left := toRatio significand exponent
      let right := toRatio significand' exponent'
      ofRatio (sign ^^ sign') (left.1 * right.2) (left.2 * right.1)
  | left, _ => left

/-- Numeric equality, except that an undefined number equals itself: the two
zeros are equal. -/
def same : Double → Double → Bool
  | .finite sign significand exponent, .finite sign' significand' exponent' =>
      (significand = 0 && significand' = 0) ||
        (sign = sign' && significand = significand' && exponent = exponent')
  | left, right => left = right

example : ofDecimal false 1 0 = .finite false (Nat.pow 2 52) (-52) := by decide +kernel

example : ofDecimal false 5 (-324) = .finite false 1 (-1074) := by decide +kernel

end Double

end RamlCheck
