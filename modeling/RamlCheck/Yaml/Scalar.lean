import RamlCheck.Yaml.Value

/-!
# What plain scalars mean

A plain scalar is null, a truth value, a number or a string by the way it is
written.  The order of the tests matters: digits behind a leading zero are a
string, and a whole number that does not fit is a double only when it has more
than 128 bits; below that it is an error.
-/

namespace RamlCheck.Yaml

/-- What a plain scalar means, before it is known whether its number fits. -/
inductive Resolved
  | value (value : Value)
  /-- A whole number of more than 64 and at most 128 bits. -/
  | tooWide (value : Int)

namespace Scalar

/-- Whether a text is one of some. -/
def isOneOf (words : List String) (text : List Char) : Bool :=
  words.any fun word => word.toList = text

/-- The spellings of null. -/
def isNull (text : List Char) : Bool :=
  isOneOf ["null", "Null", "NULL", "~"] text

/-- The truth value that a text spells. -/
def bool? (text : List Char) : Option Bool :=
  if isOneOf ["true", "True", "TRUE"] text then some true
  else if isOneOf ["false", "False", "FALSE"] text then some false
  else none

/-- Whether a character is a decimal digit. -/
def isDigit (char : Char) : Bool :=
  '0' ≤ char && char ≤ '9'

/-- The value of a digit in some base up to sixteen. -/
def digit? (base : Nat) (char : Char) : Option Nat :=
  let value :=
    if isDigit char then some (char.toNat - '0'.toNat)
    else if 'a' ≤ char ∧ char ≤ 'f' then some (char.toNat - 'a'.toNat + 10)
    else if 'A' ≤ char ∧ char ≤ 'F' then some (char.toNat - 'A'.toNat + 10)
    else none
  value.filter (· < base)

/-- The number that digits of some base write; there has to be one. -/
def natural? (base : Nat) (digits : List Char) : Option Nat :=
  if digits.isEmpty then none
  else
    (digits.mapM (digit? base)).map fun values =>
      values.foldl (fun value digit => value * base + digit) 0

/-- What follows some characters in front of a text. -/
def dropStart? (start text : List Char) : Option (List Char) :=
  if text.take start.length = start then some (text.drop start.length) else none

/-- The bases of numbers with a mark in front. -/
def markedBases : List (List Char × Nat) :=
  [(['0', 'x'], 16), (['0', 'o'], 8), (['0', 'b'], 2)]

/-- Whether a text is all digits but no number, because a zero comes first. -/
def isPaddedDigits (text : List Char) : Bool :=
  let digits :=
    match text with
    | '+' :: rest => rest
    | '-' :: rest => rest
    | _ => text
  digits.head? = some '0' && decide (1 < digits.length) && digits.all isDigit

/-- Whether a sign comes first. -/
def startsSigned (text : List Char) : Bool :=
  text.head? = some '+' || text.head? = some '-'

/-- A natural number in some base that stands behind its mark, up to a limit. -/
def markedNatural? (limit : Nat) (text : List Char) : Option Nat :=
  markedBases.findSome? fun (mark, base) => do
    let rest ← dropStart? mark text
    (natural? base rest).filter (· ≤ limit)

/-- A number without a minus sign, up to a limit. -/
def positive? (limit : Nat) (text : List Char) : Option Nat :=
  let unsigned := (dropStart? ['+'] text).getD text
  match markedNatural? limit unsigned with
  | some value => some value
  | none =>
      if startsSigned unsigned || isPaddedDigits text then none
      else (natural? 10 unsigned).filter (· ≤ limit)

/-- The absolute value of a number with a minus sign, up to a limit. -/
def negative? (limit : Nat) (text : List Char) : Option Nat := do
  let unsigned ← dropStart? ['-'] text
  match markedNatural? limit unsigned with
  | some value => return value
  | none =>
      if isPaddedDigits text then none
      else (natural? 10 unsigned).filter (· ≤ limit)

/-- The whole number that a text writes. -/
def integer? (text : List Char) : Option Resolved :=
  match positive? (Nat.pow 2 64 - 1) text, negative? (Nat.pow 2 63) text with
  | some value, _ => some (.value (.number (.integer value)))
  | none, some value => some (.value (.number (.integer (-value))))
  | none, none =>
      match positive? (Nat.pow 2 128 - 1) text, negative? (Nat.pow 2 127) text with
      | some value, _ => some (.tooWide value)
      | none, some value => some (.tooWide (-value))
      | none, none => none

/-- The exponent behind the digits of a decimal number; none is zero. -/
def exponent? (text : List Char) : Option Int :=
  match text with
  | [] => some 0
  | char :: rest =>
      if char = 'e' ∨ char = 'E' then
        match rest with
        | '-' :: digits => (natural? 10 digits).map fun value => -(value : Int)
        | '+' :: digits => (natural? 10 digits).map fun value => (value : Int)
        | digits => (natural? 10 digits).map fun value => (value : Int)
      else none

/-- The double nearest to a decimal number: digits with at most one point among
them, of which there is at least one digit, and perhaps an exponent. -/
def decimal? (text : List Char) : Option Double :=
  let (negative, unsigned) :=
    match text with
    | '-' :: rest => (true, rest)
    | '+' :: rest => (false, rest)
    | _ => (false, text)
  let whole := unsigned.takeWhile isDigit
  let behind := unsigned.drop whole.length
  let (fraction, behind) :=
    match behind with
    | '.' :: rest => (rest.takeWhile isDigit, rest.drop (rest.takeWhile isDigit).length)
    | _ => ([], behind)
  match natural? 10 (whole ++ fraction), exponent? behind with
  | some digits, some exponent => some (.ofDecimal negative digits (exponent - fraction.length))
  | _, _ => none

/-- The double that a text writes.  Infinities have spellings of their own; a
decimal number that is too large is none. -/
def float? (text : List Char) : Option Double :=
  let unsigned := (dropStart? ['+'] text).getD text
  if unsigned.length < text.length && startsSigned unsigned then none
  else if isOneOf [".inf", ".Inf", ".INF"] unsigned then some (.infinite false)
  else if isOneOf ["-.inf", "-.Inf", "-.INF"] text then some (.infinite true)
  else if isOneOf [".nan", ".NaN", ".NAN"] text then some .nan
  else (decimal? unsigned).filter Double.isFinite

/-- What a plain scalar means. -/
def resolve (text : List Char) : Resolved :=
  if text.isEmpty || isNull text then .value .null
  else
    match bool? text, integer? text with
    | some value, _ => .value (.bool value)
    | none, some resolved => resolved
    | none, none =>
        match if isPaddedDigits text then none else float? text with
        | some value => .value (.number (.float value))
        | none => .value (.string (String.ofList text))

end Scalar

end RamlCheck.Yaml
