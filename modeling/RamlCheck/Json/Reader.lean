import RamlCheck.Json.Basic
import RamlCheck.Json.Fault

/-!
# Reading JSON

`Json.read` takes a whole text to a value, or to the first thing that is wrong
with it and the place where that showed.

## Strategy

A `Cursor` is what is left of the text and how many bytes were taken.  The reader
of a value recurses on the levels of nesting that are still allowed, `127`; inside
a list or an object the items are read by a loop over a counter that the length
of the text bounds, so that everything is by structural recursion.

A number that is not whole is worked out the way most readers do it: its digits,
as far as they fit into 64 bits, are rounded to a double first and then scaled by
a power of ten.
-/

namespace RamlCheck.Json

/-- What is left of a text, and how many bytes came before it. -/
structure Cursor where
  rest : List Char
  taken : Nat
  deriving Repr

/-- How many bytes some characters take. -/
def byteLength : List Char → Nat
  | [] => 0
  | char :: rest => char.utf8Size + byteLength rest

/-- A step of reading: it takes something from the text or fails. -/
abbrev Read (Value : Type) := StateT Cursor (Except Fault) Value

namespace Read

/-- Fails behind what has been taken. -/
def failHere {Value : Type} (cause : Cause) : Read Value := do
  throw { cause, taken := (← get).taken }

/-- Fails at the next byte, or behind the text when there is none. -/
def failNext {Value : Type} (cause : Cause) : Read Value := do
  let cursor ← get
  throw { cause, taken := cursor.taken + (if cursor.rest.isEmpty then 0 else 1) }

/-- The next character, which stays. -/
def peek : Read (Option Char) := do
  return (← get).rest.head?

/-- Takes the next character. -/
def next : Read (Option Char) := do
  match (← get) with
  | ⟨[], _⟩ => return none
  | ⟨char :: rest, taken⟩ =>
      set (Cursor.mk rest (taken + char.utf8Size))
      return some char

/-- Takes the next character and fails behind its first byte. -/
def failIn {Value : Type} (cause : Cause) : Read Value := do
  throw { cause, taken := (← get).taken + 1 }

/-- Takes all characters in front that satisfy a test. -/
def takeWhile (test : Char → Bool) : Read (List Char) := do
  let cursor ← get
  let chars := cursor.rest.takeWhile test
  set (Cursor.mk (cursor.rest.drop chars.length) (cursor.taken + byteLength chars))
  return chars

/-- Skips the white space of JSON and shows the character behind it. -/
def afterSpace : Read (Option Char) := do
  let _ ← takeWhile fun char => char = ' ' || char = '\n' || char = '\t' || char = '\r'
  peek

end Read

open Read

/-! ## Strings -/

/-- The value of a digit of base sixteen, in either case. -/
def hexValue? (char : Char) : Option Nat :=
  if '0' ≤ char ∧ char ≤ '9' then some (char.toNat - '0'.toNat)
  else if 'a' ≤ char ∧ char ≤ 'f' then some (char.toNat - 'a'.toNat + 10)
  else if 'A' ≤ char ∧ char ≤ 'F' then some (char.toNat - 'A'.toNat + 10)
  else none

/-- The four digits of an escaped code unit.  Four bytes are looked at, whatever
characters they belong to. -/
def codeUnit : Read Nat := do
  let cursor ← get
  if byteLength cursor.rest < 4 then
    throw { cause := .endInString, taken := cursor.taken + byteLength cursor.rest }
  match (cursor.rest.take 4).mapM hexValue? with
  | some [first, second, third, fourth] =>
      set (Cursor.mk (cursor.rest.drop 4) (cursor.taken + 4))
      return ((first * 16 + second) * 16 + third) * 16 + fourth
  | _ => throw { cause := .badEscape, taken := cursor.taken + 4 }

/-- Takes one character, which has to be `wanted`; otherwise fails behind its
first byte. -/
def expectInPair (wanted : Char) : Read Unit := do
  match ← peek with
  | none => failHere .endInString
  | some char => if char = wanted then discard next else failIn .brokenSurrogatePair

/-- The character of an escape by code units: one, or a pair of surrogates. -/
def escapedUnits : Read Char := do
  let unit ← codeUnit
  if 0xDC00 ≤ unit ∧ unit ≤ 0xDFFF then failHere .loneSurrogate
  else if unit < 0xD800 ∨ 0xDBFF < unit then return Char.ofNat unit
  else
    expectInPair '\\'
    expectInPair 'u'
    let low ← codeUnit
    if low < 0xDC00 ∨ 0xDFFF < low then failHere .loneSurrogate
    else return Char.ofNat ((unit - 0xD800) * 0x400 + (low - 0xDC00) + 0x10000)

/-- The character of an escape, behind its backslash. -/
def escaped : Read Char := do
  match ← peek with
  | none => failHere .endInString
  | some char =>
      match char with
      | '"' => discard next; return '"'
      | '\\' => discard next; return '\\'
      | '/' => discard next; return '/'
      | 'b' => discard next; return '\x08'
      | 'f' => discard next; return '\x0c'
      | 'n' => discard next; return '\n'
      | 'r' => discard next; return '\r'
      | 't' => discard next; return '\t'
      | 'u' => discard next; escapedUnits
      | _ => failIn .badEscape

/-- The characters of a string up to its closing quote. -/
def stringBody : Nat → List Char → Read String
  | 0, _ => failHere .endInString
  | fuel + 1, reversed => do
      match ← next with
      | none => failHere .endInString
      | some '"' => return String.ofList reversed.reverse
      | some '\\' => do
          let char ← escaped
          stringBody fuel (char :: reversed)
      | some char =>
          if char.toNat < 0x20 then failHere .controlInString
          else stringBody fuel (char :: reversed)

/-- A string behind its opening quote. -/
def quotedString : Read String := do
  stringBody ((← get).rest.length + 1) []

/-! ## Numbers -/

/-- The greatest number of 64 bits. -/
def greatestWord : Nat := Nat.pow 2 64 - 1

/-- The greatest exponent that is worked out. -/
def greatestPower : Nat := Nat.pow 2 31 - 1

/-- Whether a character is a decimal digit. -/
def isDigit (char : Char) : Bool :=
  '0' ≤ char && char ≤ '9'

/-- The value of a decimal digit. -/
def digitValue (char : Char) : Nat :=
  char.toNat - '0'.toNat

/-- A number with as many digits behind it as keep it within a limit, and the
digits that do not fit. -/
def fitDigits (limit number : Nat) : List Char → Nat × List Char
  | [] => (number, [])
  | char :: rest =>
      let longer := number * 10 + digitValue char
      if limit < longer then (number, char :: rest) else fitDigits limit longer rest

/-- A rounded number times a power of ten, in steps that fit the powers there
are; nothing if it is too large. -/
def scaleByTen : Nat → Double → Int → Option Double
  | 0, number, _ => some number
  | steps + 1, number, power =>
      if power.natAbs ≤ 308 then
        let factor := Double.ofDecimal false 1 power.natAbs
        if 0 ≤ power then
          let scaled := number.times factor
          if scaled.isFinite then some scaled else none
        else some (number.dividedBy factor)
      else if number = Double.zero false then some number
      else if 0 ≤ power then none
      else scaleByTen steps (number.dividedBy (Double.ofDecimal false 1 308)) (power + 308)

/-- The double of digits and a power of ten. -/
def doubleOfParts (negative : Bool) (digits : Nat) (power : Int) : Read Json := do
  match scaleByTen (power.natAbs / 308 + 1) (Double.ofNat digits) power with
  | some number => return .float (number.withSign negative)
  | none => failHere .numberTooLarge

/-- The exponent of a number, behind its digits. -/
def exponentPart (negative : Bool) (digits : Nat) (power : Int) : Read Json := do
  discard next
  let sign ← peek
  if sign = some '+' ∨ sign = some '-' then discard next
  match ← peek with
  | none => failHere .endInValue
  | some char =>
      if !isDigit char then failIn .badNumber
      else
        let cursor ← get
        let written := cursor.rest.takeWhile isDigit
        let (value, excess) := fitDigits greatestPower 0 written
        if excess.isEmpty then
          discard (takeWhile isDigit)
          doubleOfParts negative digits (if sign = some '-' then power - value else power + value)
        else if digits ≠ 0 ∧ sign ≠ some '-' then
          let fitting := written.length - excess.length
          throw { cause := .numberTooLarge, taken := cursor.taken + fitting + 1 }
        else
          discard (takeWhile isDigit)
          return .float (Double.zero negative)

/-- What follows the digits behind a decimal point. -/
def afterFraction (negative : Bool) (digits : Nat) (power : Int) : Read Json := do
  match ← peek with
  | some 'e' => exponentPart negative digits power
  | some 'E' => exponentPart negative digits power
  | _ => doubleOfParts negative digits power

/-- The decimal point and the digits behind it; digits beyond 64 bits are
dropped. -/
def fractionPart (negative : Bool) (digits : Nat) (power : Int) : Read Json := do
  discard next
  let written ← takeWhile isDigit
  match written with
  | [] =>
      if (← peek).isSome then failNext .badNumber else failNext .endInValue
  | _ =>
      let fitting := fitDigits greatestWord digits written
      let used := written.length - fitting.2.length
      afterFraction negative fitting.1 (power - used)

/-- A number behind its sign. -/
def number (negative : Bool) : Read Json := do
  match ← peek with
  | none => failHere .endInValue
  | some first =>
      if !isDigit first then failIn .badNumber
      else if first = '0' then
        discard next
        match ← peek with
        | some char => if isDigit char then failNext .badNumber else rest 0 0
        | none => rest 0 0
      else
        let written ← takeWhile isDigit
        let fitting := fitDigits greatestWord 0 written
        rest fitting.1 fitting.2.length
where
  /-- What follows the digits before a decimal point, of which some may have been
  dropped. -/
  rest (digits dropped : Nat) : Read Json := do
    match ← peek with
    | some '.' => fractionPart negative digits dropped
    | some 'e' => exponentPart negative digits dropped
    | some 'E' => exponentPart negative digits dropped
    | _ =>
        if dropped ≠ 0 then doubleOfParts negative digits dropped
        else if !negative then return .integer digits
        else if digits = 0 ∨ Nat.pow 2 63 < digits then
          return .float ((Double.ofNat digits).withSign true)
        else return .integer (-digits)

/-! ## Values -/

/-- The letters of a word behind its first one. -/
def wordRest (letters : List Char) (value : Json) : Read Json := do
  for letter in letters do
    match ← peek with
    | none => failHere .endInValue
    | some char => if char = letter then discard next else failIn .wordExpected
  return value

/-- The items of a list behind its bracket, up to the closing one. -/
def listItems (item : Read Json) : Nat → Bool → List Json → Read Json
  | 0, _, _ => failHere .endInList
  | fuel + 1, first, reversed => do
      match ← afterSpace with
      | none => failNext .endInList
      | some ']' =>
          discard next
          return .array reversed.reverse
      | some char =>
          if first then
            let value ← item
            listItems item fuel false (value :: reversed)
          else if char = ',' then
            discard next
            match ← afterSpace with
            | none => failNext .endInValue
            | some ']' => failNext .trailingComma
            | some _ =>
                let value ← item
                listItems item fuel false (value :: reversed)
          else failNext .commaOrBracketExpected

/-- The member of an object that starts at a quote. -/
def objectMember (item : Read Json) : Read (String × Json) := do
  discard next
  let name ← quotedString
  match ← afterSpace with
  | none => failNext .endInObject
  | some ':' =>
      discard next
      return (name, ← item)
  | some _ => failNext .colonExpected

/-- The members of an object behind its brace, up to the closing one. -/
def objectMembers (item : Read Json) : Nat → Bool → List (String × Json) → Read Json
  | 0, _, _ => failHere .endInObject
  | fuel + 1, first, reversed => do
      match ← afterSpace with
      | none => failNext .endInObject
      | some '\x7d' =>
          discard next
          return ofEntries reversed.reverse
      | some char =>
          if first then
            if char = '"' then
              let entry ← objectMember item
              objectMembers item fuel false (entry :: reversed)
            else failNext .keyNotString
          else if char = ',' then
            discard next
            match ← afterSpace with
            | none => failNext .endInValue
            | some '"' =>
                let entry ← objectMember item
                objectMembers item fuel false (entry :: reversed)
            | some '\x7d' => failNext .trailingComma
            | some _ => failNext .keyNotString
          else failNext .commaOrBraceExpected

/-- A value, of which the values inside a list or an object are read by `inner`;
without it neither may be opened. -/
def valueWith (inner : Option (Read Json)) : Read Json := do
  match ← afterSpace with
  | none => failNext .endInValue
  | some 'n' => discard next; wordRest ['u', 'l', 'l'] .null
  | some 't' => discard next; wordRest ['r', 'u', 'e'] (.bool true)
  | some 'f' => discard next; wordRest ['a', 'l', 's', 'e'] (.bool false)
  | some '-' => discard next; number true
  | some '"' => discard next; return .string (← quotedString)
  | some '[' =>
      match inner with
      | none => failNext .tooDeep
      | some item =>
          discard next
          listItems item ((← get).rest.length + 1) true []
  | some '\x7b' =>
      match inner with
      | none => failNext .tooDeep
      | some item =>
          discard next
          objectMembers item ((← get).rest.length + 1) true []
  | some char => if isDigit char then number false else failNext .valueExpected

/-- A value in which at most `depth` lists and objects are open at a time. -/
def value : (depth : Nat) → Read Json
  | 0 => valueWith none
  | depth + 1 => valueWith (some (value depth))

/-- How many lists and objects may be open at a time. -/
def greatestDepth : Nat := 127

/-- A value and the end of the text behind it. -/
def document : Read Json := do
  let result ← value greatestDepth
  match ← afterSpace with
  | none => return result
  | some _ => failNext .trailingText

/-- Reads a whole text as one JSON value. -/
def read (text : String) : Except Error Json :=
  match document.run { rest := text.toList, taken := 0 } with
  | .ok (result, _) => .ok result
  | .error fault =>
      .error { cause := fault.cause, place := placeAfter text.toList fault.taken }

end RamlCheck.Json
