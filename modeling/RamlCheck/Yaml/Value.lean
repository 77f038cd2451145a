import RamlCheck.Number.Layout

/-!
# YAML values

A value is what a document means: scalars are resolved, aliases are replaced by
what they name, and a mapping keeps its entries in the order of the text.

`Value.same` compares keys: mappings regardless of order, tags regardless of
their `!`, and numbers by kind, so that `1` and `1.0` differ.
-/

namespace RamlCheck.Yaml

/-- A number: whole and at most 64 bits wide, or of double precision. -/
inductive Number
  | integer (value : Int)
  | float (value : Double)
  deriving DecidableEq, Repr

/-- A YAML value. -/
inductive Value
  | null
  | bool (value : Bool)
  | number (value : Number)
  | string (text : String)
  | sequence (items : List Value)
  | mapping (entries : List (Value × Value))
  | tagged (tag : String) (value : Value)
  deriving Repr, Inhabited

namespace Number

/-- Whether two numbers are the same key. -/
def same : Number → Number → Bool
  | .integer left, .integer right => left = right
  | .float left, .float right => left.same right
  | _, _ => false

/-- Magnitudes from `1e-5` up to sixteen digits are positional, and an exponent
has a sign only if it is negative. -/
def layout : Layout :=
  { tooSmall := -5, largest := 16, exponentSign := "", infinity := ".inf", undefined := ".nan" }

/-- The text of a number. -/
def text : Number → String
  | .integer value => toString value
  | .float value => value.render layout

end Number

/-- A tag without the `!` in front of it. -/
def tagWithoutBang (tag : String) : List Char :=
  match tag.toList with
  | '!' :: rest => if rest.isEmpty then ['!'] else rest
  | chars => chars

namespace Value

mutual

/-- Whether two values are the same key. -/
def same : Value → Value → Bool
  | .null, .null => true
  | .bool left, .bool right => left = right
  | .number left, .number right => left.same right
  | .string left, .string right => left = right
  | .sequence left, .sequence right => sameItems left right
  | .mapping left, .mapping right => left.length = right.length && sameEntries left right
  | .tagged tag left, .tagged tag' right =>
      tagWithoutBang tag = tagWithoutBang tag' && same left right
  | _, _ => false

/-- Whether two lists hold the same items. -/
def sameItems : List Value → List Value → Bool
  | [], [] => true
  | left :: lefts, right :: rights => same left right && sameItems lefts rights
  | _, _ => false

/-- Whether each entry is also one of some others. -/
def sameEntries : List (Value × Value) → List (Value × Value) → Bool
  | [], _ => true
  | (key, value) :: rest, others =>
      others.any (fun other => same key other.1 && same value other.2) && sameEntries rest others

end

end Value

end RamlCheck.Yaml
