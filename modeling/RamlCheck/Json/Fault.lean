/-!
# Why a text is not JSON

A `Json.Fault` names what is wrong and how many bytes of the text were taken when
it showed.  Lines and columns are worked out from the text afterwards; columns
count bytes.
-/

namespace RamlCheck.Json

/-- What is wrong with a text that is not JSON. -/
inductive Cause
  | endInList
  | endInObject
  | endInString
  | endInValue
  | colonExpected
  | commaOrBracketExpected
  | commaOrBraceExpected
  | wordExpected
  | valueExpected
  | badEscape
  | badNumber
  | numberTooLarge
  | controlInString
  | keyNotString
  | loneSurrogate
  | trailingComma
  | trailingText
  | brokenSurrogatePair
  | tooDeep
  deriving DecidableEq, Repr

/-- The wording of a cause. -/
def Cause.message : Cause → String
  | .endInList => "EOF while parsing a list"
  | .endInObject => "EOF while parsing an object"
  | .endInString => "EOF while parsing a string"
  | .endInValue => "EOF while parsing a value"
  | .colonExpected => "expected `:`"
  | .commaOrBracketExpected => "expected `,` or `]`"
  | .commaOrBraceExpected => "expected `,` or `\x7d`"
  | .wordExpected => "expected ident"
  | .valueExpected => "expected value"
  | .badEscape => "invalid escape"
  | .badNumber => "invalid number"
  | .numberTooLarge => "number out of range"
  | .controlInString => "control character (\\u0000-\\u001F) found while parsing a string"
  | .keyNotString => "key must be a string"
  | .loneSurrogate => "lone leading surrogate in hex escape"
  | .trailingComma => "trailing comma"
  | .trailingText => "trailing characters"
  | .brokenSurrogatePair => "unexpected end of hex escape"
  | .tooDeep => "recursion limit exceeded"

/-- A cause and the number of bytes taken when it showed. -/
structure Fault where
  cause : Cause
  taken : Nat
  deriving DecidableEq, Repr

/-- A place in a text: the line, counted from one, and the bytes of that line up
to the place. -/
structure Place where
  line : Nat
  column : Nat
  deriving DecidableEq, Repr

/-- The place after some bytes of a text, from the place where the text starts.
A character of which only some bytes count moves the column by those. -/
def Place.after (place : Place) : List Char → Nat → Place
  | [], _ => place
  | char :: rest, bytes =>
      if bytes = 0 then place
      else if bytes < char.utf8Size then { place with column := place.column + bytes }
      else
        let next : Place :=
          if char = '\n' then { line := place.line + 1, column := 0 }
          else { place with column := place.column + char.utf8Size }
        next.after rest (bytes - char.utf8Size)

/-- The place after some bytes of a whole text. -/
def placeAfter (text : List Char) (bytes : Nat) : Place :=
  Place.after { line := 1, column := 0 } text bytes

/-- A fault with the place where it showed. -/
structure Error where
  cause : Cause
  place : Place
  deriving DecidableEq, Repr

/-- The wording of an error, with its place. -/
def Error.message (error : Error) : String :=
  error.cause.message ++ " at line " ++ toString error.place.line ++ " column "
    ++ toString error.place.column

end RamlCheck.Json
