import RamlCheck.Number.Double

/-!
# The fewest digits that read back

A finite double is written with the fewest decimal digits that still round to
it.  The reals that round to `significand · 2 ^ exponent` form an interval around
it; for one digit, two digits and so on, the two neighbours of the number on the
grid of that many digits are tried, and the first grid with a neighbour inside
the interval wins.  Of two neighbours the nearer one is taken.

All comparisons are between natural numbers: the number, the ends of the
interval and the grid are brought over one denominator.
-/

namespace RamlCheck.Double

/-- Decimal digits and the power of ten they are multiplied by. -/
structure Digits where
  digits : Nat
  power : Int
  deriving DecidableEq, Repr

/-- A positive double and the ends of the interval of reals that round to it,
each as a numerator over `denominator`; `closed` says whether the ends
themselves round to it. -/
structure Interval where
  low : Nat
  value : Nat
  high : Nat
  denominator : Nat
  closed : Bool

/-- The interval of a positive double.  Below a power of two the lower
neighbour is half as far away. -/
def interval (significand : Nat) (exponent : Int) : Interval :=
  let narrow := significand = Nat.pow 2 52 && leastExponent < exponent
  let below := if narrow then 1 else 2
  let factor := if exponent < 2 then 1 else Nat.pow 2 (exponent - 2).natAbs
  let denominator := if exponent < 2 then Nat.pow 2 (2 - exponent).natAbs else 1
  { low := (4 * significand - below) * factor
    value := 4 * significand * factor
    high := (4 * significand + 2) * factor
    denominator
    closed := significand % 2 = 0 }

/-- A natural number times a power of ten, as a quotient. -/
def decimalRatio (digits : Nat) (power : Int) : Nat × Nat :=
  if power < 0 then (digits, Nat.pow 10 power.natAbs) else (digits * Nat.pow 10 power.natAbs, 1)

/-- Whether a decimal number lies in an interval. -/
def Interval.holds (range : Interval) (digits : Nat) (power : Int) : Bool :=
  let ratio := decimalRatio digits power
  let point := ratio.1 * range.denominator
  let low := range.low * ratio.2
  let high := range.high * ratio.2
  if range.closed then low ≤ point && point ≤ high else low < point && point < high

/-- Twice the number lies above the middle of `digits` and `digits + 1`, or on
it when `digits` is odd. -/
def Interval.nearerUp (range : Interval) (digits : Nat) (power : Int) : Bool :=
  let ratio := decimalRatio (2 * digits + 1) power
  let middle := ratio.1 * range.denominator
  let doubled := 2 * range.value * ratio.2
  middle < doubled || (middle = doubled && digits % 2 = 1)

/-- The greatest power of ten that is at most the number, found from a guess
that is at most two too large. -/
def Interval.magnitude (range : Interval) : Int :=
  let bits : Int := (range.value.log2 : Int) - range.denominator.log2
  let guess : Int := bits * 30103 / 100000 + 1
  let reaches := fun power : Int =>
    let ratio := decimalRatio 1 power
    ratio.1 * range.denominator ≤ range.value * ratio.2
  if reaches guess then guess
  else if reaches (guess - 1) then guess - 1
  else if reaches (guess - 2) then guess - 2
  else guess - 3

/-- The whole number of units `10 ^ power` in the number. -/
def Interval.units (range : Interval) (power : Int) : Nat :=
  let ratio := decimalRatio 1 power
  range.value * ratio.2 / (range.denominator * ratio.1)

/-- The neighbour on the grid of units `10 ^ power` that reads back, if one
does. -/
def Interval.onGrid (range : Interval) (power : Int) : Option Nat :=
  let lower := range.units power
  match range.holds lower power && lower ≠ 0, range.holds (lower + 1) power with
  | true, true => some (if range.nearerUp lower power then lower + 1 else lower)
  | true, false => some lower
  | false, true => some (lower + 1)
  | false, false => none

/-- The first grid, from the coarsest on, with a neighbour that reads back. -/
def Interval.search (range : Interval) (magnitude : Int) : Nat → Nat → Option Digits
  | 0, _ => none
  | remaining + 1, tried =>
      let power := magnitude - tried
      match range.onGrid power with
      | some digits => some { digits, power }
      | none => range.search magnitude remaining (tried + 1)

/-- Digits without the zeros at their end. -/
def Digits.trimmed : Nat → Digits → Digits
  | 0, number => number
  | remaining + 1, number =>
      if number.digits ≠ 0 ∧ number.digits % 10 = 0 then
        trimmed remaining { digits := number.digits / 10, power := number.power + 1 }
      else number

/-- The fewest digits that read back as a positive double. -/
def shortest (significand : Nat) (exponent : Int) : Digits :=
  let range := interval significand exponent
  let found := range.search range.magnitude 17 0
  Digits.trimmed 20 (found.getD { digits := range.units (range.magnitude - 16)
                                  power := range.magnitude - 16 })

example : shortest 1 (-1074) = { digits := 5, power := -324 } := by decide +kernel

end RamlCheck.Double
