import RamlCheck.Number.Shortest

/-!
# Written form of a double

A format of numbers settles which magnitudes are written positionally and how
an exponent looks; the digits are the same in all of them.  `Layout` holds these
decisions and `Double.render` carries them out.

A finite number always shows a decimal point or an exponent, so that it is never
mistaken for a whole number.
-/

namespace RamlCheck

/-- The decisions of one format of numbers. -/
structure Layout where
  /-- Numbers whose decimal point stands at most this far before their first
  digit are written with an exponent. -/
  tooSmall : Int
  /-- Numbers whose decimal point stands further than this behind their first
  digit are written with an exponent. -/
  largest : Int
  /-- What stands between the exponent's `e` and its digits when it is not
  negative. -/
  exponentSign : String
  infinity : String
  undefined : String

namespace Layout

/-- As many zeros as asked for. -/
def zeros (count : Nat) : String :=
  String.ofList (List.replicate count '0')

/-- Digits with a decimal point `point` places after the first of them. -/
def positional (digits : List Char) (point : Int) : String :=
  let count : Int := digits.length
  if point ≤ 0 then "0." ++ zeros point.natAbs ++ String.ofList digits
  else if count ≤ point then
    String.ofList digits ++ zeros (point - count).natAbs ++ ".0"
  else
    String.ofList (digits.take point.natAbs) ++ "." ++ String.ofList (digits.drop point.natAbs)

/-- Digits with one of them before the decimal point, and an exponent. -/
def scientific (layout : Layout) (digits : List Char) (exponent : Int) : String :=
  let mantissa :=
    match digits with
    | [] => ""
    | [digit] => String.ofList [digit]
    | digit :: rest => String.ofList (digit :: '.' :: rest)
  let sign := if exponent < 0 then "-" else layout.exponentSign
  mantissa ++ "e" ++ sign ++ toString exponent.natAbs

/-- The written form of a positive finite number. -/
def magnitude (layout : Layout) (number : Double.Digits) : String :=
  let digits := Nat.toDigits 10 number.digits
  let point : Int := digits.length + number.power
  if layout.tooSmall < point ∧ point ≤ layout.largest then positional digits point
  else layout.scientific digits (point - 1)

end Layout

/-- The written form of a number. -/
def Double.render (layout : Layout) : Double → String
  | .finite negative significand exponent =>
      let sign := if negative then "-" else ""
      if significand = 0 then sign ++ "0.0"
      else sign ++ layout.magnitude (Double.shortest significand exponent)
  | .infinite negative => (if negative then "-" else "") ++ layout.infinity
  | .nan => layout.undefined

end RamlCheck
