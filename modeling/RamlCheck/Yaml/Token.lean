import RamlCheck.Text.Basic
import RamlCheck.Yaml.Fault

/-!
# Tokens

A YAML text is a sequence of tokens, each with the places where it starts and
ends.  A sequence may break off at a fault: `TokenList` holds the tokens in front
of it.
-/

namespace RamlCheck.Yaml

/-- The full name of a tag in bytes.  Since its characters can be escaped byte by
byte, it need not be a text. -/
abbrev Tag := List UInt8

namespace Tag

/-- The tag that a text names. -/
def ofText (text : String) : Tag :=
  (Text.encode text).toList

/-- What counts of some bytes: a zero byte ends a tag. -/
def upToZero (bytes : List UInt8) : Tag :=
  bytes.takeWhile (· ≠ 0)

/-- Whether a tag is local to the document: it starts with `!`. -/
def isLocal (tag : Tag) : Bool :=
  tag.head? = some '!'.toUInt8

/-- The name of a local tag without its `!`, if it is a text.  The tag `!` is its
own name. -/
def localName? (tag : Tag) : Option String :=
  if tag.isLocal then Text.decodeBytes? (if tag.length = 1 then tag else tag.drop 1) else none

end Tag

/-- A tag as written: a handle and a suffix.  A verbatim tag has an empty
handle. -/
structure TagName where
  handle : List Char
  suffix : Tag
  deriving DecidableEq, Repr

/-- Kinds of tokens. -/
inductive TokenKind
  | streamStart
  | streamEnd
  | versionDirective (major minor : Nat)
  | tagDirective (handle : List Char) (pre : Tag)
  | documentStart
  | documentEnd
  | blockSequenceStart
  | blockMappingStart
  | blockEnd
  | flowSequenceStart
  | flowSequenceEnd
  | flowMappingStart
  | flowMappingEnd
  | blockEntry
  | flowEntry
  | key
  | value
  | aliased (name : List Char)
  | anchor (name : List Char)
  | tag (name : TagName)
  | scalar (text : List Char) (isPlain : Bool)
  deriving DecidableEq, Repr

/-- A token and its places. -/
structure Token where
  kind : TokenKind
  start : Mark
  finish : Mark
  deriving DecidableEq, Repr

/-- The tokens of a text up to its end, or up to a fault. -/
structure TokenList where
  tokens : List Token
  fault : Option Fault
  deriving DecidableEq, Repr

end RamlCheck.Yaml
