import RamlCheck.Json.Basic
import RamlCheck.Number.Layout

/-!
# Written JSON

A value is written on one line without spaces (`Json.compact`), or with one item
a line and two blanks for each level (`Json.pretty`).  Both agree on the leaves:
the text of a number is `Json.floatLayout`'s, and in a string only what JSON
requires is escaped.
-/

namespace RamlCheck.Json

/-- Magnitudes from `1e-5` up to sixteen digits are positional, and an exponent
always has its sign.  JSON has no infinite or undefined numbers. -/
def floatLayout : Layout :=
  { tooSmall := -5, largest := 16, exponentSign := "+", infinity := "null", undefined := "null" }

/-- A digit of base sixteen in lower case. -/
def hexDigit (value : Nat) : Char :=
  Nat.digitChar value

/-- One character as it stands in a JSON string. -/
def escape (char : Char) : List Char :=
  if char = '"' then ['\\', '"']
  else if char = '\\' then ['\\', '\\']
  else if char = '\x08' then ['\\', 'b']
  else if char = '\x0c' then ['\\', 'f']
  else if char = '\n' then ['\\', 'n']
  else if char = '\r' then ['\\', 'r']
  else if char = '\t' then ['\\', 't']
  else if char.toNat < 0x20 then
    ['\\', 'u', '0', '0', hexDigit (char.toNat / 16), hexDigit (char.toNat % 16)]
  else [char]

/-- A text as a JSON string. -/
def stringLiteral (text : String) : String :=
  String.ofList ('"' :: text.toList.flatMap escape ++ ['"'])

/-- The text of a value that is neither an array nor an object; arrays and
objects are not leaves and have none. -/
def leaf : Json → String
  | .null => "null"
  | .bool value => if value then "true" else "false"
  | .integer value => toString value
  | .float value => value.render floatLayout
  | .string text => stringLiteral text
  | .array _ => ""
  | .object _ => ""

mutual

/-- A value on one line. -/
def compact : Json → String
  | .array items => "[" ++ compactItems items ++ "]"
  | .object members => "\x7b" ++ compactMembers members ++ "\x7d"
  | value => leaf value

/-- Items on one line, with commas between them. -/
def compactItems : List Json → String
  | [] => ""
  | [item] => compact item
  | item :: rest => compact item ++ "," ++ compactItems rest

/-- Members on one line, with commas between them. -/
def compactMembers : List (String × Json) → String
  | [] => ""
  | [(name, value)] => stringLiteral name ++ ":" ++ compact value
  | (name, value) :: rest =>
      stringLiteral name ++ ":" ++ compact value ++ "," ++ compactMembers rest

end

/-- The start of a line at some level. -/
def newLine (level : Nat) : String :=
  String.ofList ('\n' :: List.replicate (2 * level) ' ')

mutual

/-- A value that starts at some level, over several lines. -/
def prettyAt (level : Nat) : Json → String
  | .array [] => "[]"
  | .array items => "[" ++ prettyItems (level + 1) items ++ newLine level ++ "]"
  | .object [] => "\x7b\x7d"
  | .object members => "\x7b" ++ prettyMembers (level + 1) members ++ newLine level ++ "\x7d"
  | value => leaf value

/-- Items at some level, one a line. -/
def prettyItems (level : Nat) : List Json → String
  | [] => ""
  | [item] => newLine level ++ prettyAt level item
  | item :: rest => newLine level ++ prettyAt level item ++ "," ++ prettyItems level rest

/-- Members at some level, one a line. -/
def prettyMembers (level : Nat) : List (String × Json) → String
  | [] => ""
  | [(name, value)] => newLine level ++ stringLiteral name ++ ": " ++ prettyAt level value
  | (name, value) :: rest =>
      newLine level ++ stringLiteral name ++ ": " ++ prettyAt level value ++ ","
        ++ prettyMembers level rest

end

/-- A value over several lines. -/
def pretty (value : Json) : String :=
  prettyAt 0 value

end RamlCheck.Json
