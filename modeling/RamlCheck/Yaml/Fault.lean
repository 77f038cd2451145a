import RamlCheck.Yaml.Cell

/-!
# Why a text is not YAML

A fault is a problem at a place, found in the course of some activity.  The
wordings stand here and nowhere else.
-/

namespace RamlCheck.Yaml

/-- What is wrong with a text that is not YAML. -/
inductive Problem
  | controlCharacter
  | strayCharacter
  | keyWithoutValue
  | sequenceNotAllowed
  | keyNotAllowed
  | valueNotAllowed
  | unknownDirective
  | directiveWithoutName
  | directiveName
  | textAfterDirective
  | versionDigit
  | longVersion
  | versionMissing
  | tagPrefixGap
  | tagPrefixEnd
  | nameExpected
  | tagClosing
  | tagEnd
  | tagBang
  | tagUri
  | escapedOctet
  | leadingOctet
  | trailingOctet
  | zeroIndentation
  | textAfterBlockHeader
  | tabInBlock
  | documentInQuotes
  | endInQuotes
  | unknownEscape
  | hexNumber
  | badCodePoint
  | colonInFlow
  | tabInPlain
  | documentStart
  | duplicateVersion
  | incompatibleVersion
  | duplicateTagHandle
  | undefinedTagHandle
  | nodeContent
  | dashExpected
  | keyExpected
  | commaOrBracket
  | commaOrBrace
  deriving DecidableEq, Repr

/-- The wording of a problem. -/
def Problem.message : Problem → String
  | .controlCharacter => "control characters are not allowed"
  | .strayCharacter => "found character that cannot start any token"
  | .keyWithoutValue => "could not find expected ':'"
  | .sequenceNotAllowed => "block sequence entries are not allowed in this context"
  | .keyNotAllowed => "mapping keys are not allowed in this context"
  | .valueNotAllowed => "mapping values are not allowed in this context"
  | .unknownDirective => "found unknown directive name"
  | .directiveWithoutName => "could not find expected directive name"
  | .directiveName => "found unexpected non-alphabetical character"
  | .textAfterDirective => "did not find expected comment or line break"
  | .versionDigit => "did not find expected digit or '.' character"
  | .longVersion => "found extremely long version number"
  | .versionMissing => "did not find expected version number"
  | .tagPrefixGap => "did not find expected whitespace"
  | .tagPrefixEnd => "did not find expected whitespace or line break"
  | .nameExpected => "did not find expected alphabetic or numeric character"
  | .tagClosing => "did not find the expected '>'"
  | .tagEnd => "did not find expected whitespace or line break"
  | .tagBang => "did not find expected '!'"
  | .tagUri => "did not find expected tag URI"
  | .escapedOctet => "did not find URI escaped octet"
  | .leadingOctet => "found an incorrect leading UTF-8 octet"
  | .trailingOctet => "found an incorrect trailing UTF-8 octet"
  | .zeroIndentation => "found an indentation indicator equal to 0"
  | .textAfterBlockHeader => "did not find expected comment or line break"
  | .tabInBlock => "found a tab character where an indentation space is expected"
  | .documentInQuotes => "found unexpected document indicator"
  | .endInQuotes => "found unexpected end of stream"
  | .unknownEscape => "found unknown escape character"
  | .hexNumber => "did not find expected hexadecimal number"
  | .badCodePoint => "found invalid Unicode character escape code"
  | .colonInFlow => "found unexpected ':'"
  | .tabInPlain => "found a tab character that violates indentation"
  | .documentStart => "did not find expected <document start>"
  | .duplicateVersion => "found duplicate %YAML directive"
  | .incompatibleVersion => "found incompatible YAML document"
  | .duplicateTagHandle => "found duplicate %TAG directive"
  | .undefinedTagHandle => "found undefined tag handle"
  | .nodeContent => "did not find expected node content"
  | .dashExpected => "did not find expected '-' indicator"
  | .keyExpected => "did not find expected key"
  | .commaOrBracket => "did not find expected ',' or ']'"
  | .commaOrBrace => "did not find expected ',' or '\x7d'"

/-- What was going on when a problem showed. -/
inductive Activity
  | nextToken
  | simpleKey
  | directive
  | versionDirective
  | tagDirective
  | tagHandleOfDirective
  | tagHandle
  | parsingTagDirective
  | parsingTag
  | anchor
  | aliasName
  | tag
  | blockScalar
  | quotedScalar
  | escape
  | plainScalar
  | node
  | blockNode
  | flowNode
  | blockCollection
  | blockMapping
  | flowSequence
  | flowMapping
  deriving DecidableEq, Repr

/-- The wording of an activity. -/
def Activity.message : Activity → String
  | .nextToken => "while scanning for the next token"
  | .simpleKey => "while scanning a simple key"
  | .directive => "while scanning a directive"
  | .versionDirective => "while scanning a %YAML directive"
  | .tagDirective => "while scanning a %TAG directive"
  | .tagHandleOfDirective => "while scanning a tag directive"
  | .tagHandle => "while parsing a tag directive"
  | .parsingTagDirective => "while parsing a %TAG directive"
  | .parsingTag => "while parsing a tag"
  | .anchor => "while scanning an anchor"
  | .aliasName => "while scanning an alias"
  | .tag => "while scanning a tag"
  | .blockScalar => "while scanning a block scalar"
  | .quotedScalar => "while scanning a quoted scalar"
  | .escape => "while parsing a quoted scalar"
  | .plainScalar => "while scanning a plain scalar"
  | .node => "while parsing a node"
  | .blockNode => "while parsing a block node"
  | .flowNode => "while parsing a flow node"
  | .blockCollection => "while parsing a block collection"
  | .blockMapping => "while parsing a block mapping"
  | .flowSequence => "while parsing a flow sequence"
  | .flowMapping => "while parsing a flow mapping"

/-- A problem, the place where it showed, and the activity it was found in.
`offset` counts bytes and is for problems that have no place. -/
structure Fault where
  problem : Problem
  mark : Mark
  activity : Option Activity
  offset : Nat
  deriving DecidableEq, Repr

/-- A problem at a place. -/
def Fault.of (problem : Problem) (mark : Mark) (activity : Option Activity) : Fault :=
  { problem, mark, activity, offset := 0 }

/-- A place in the words of a message; nothing for the start of a text. -/
def Mark.suffix (mark : Mark) : String :=
  if mark.line ≠ 0 ∨ mark.column ≠ 0 then
    " at line " ++ toString (mark.line + 1) ++ " column " ++ toString (mark.column + 1)
  else ""

/-- The wording of a fault, with its place.  The reader also words where the activity
began, behind the activity and only if that is another place.  It is left out here: the
text is cut at its first place before anyone is shown it, and if the place of the fault
is worded as nothing, so is that of its activity. -/
def Fault.message (fault : Fault) : String :=
  let place :=
    if fault.mark.line ≠ 0 ∨ fault.mark.column ≠ 0 then fault.mark.suffix
    else if fault.offset ≠ 0 then " at position " ++ toString fault.offset
    else ""
  fault.problem.message ++ place ++
    match fault.activity with
    | none => ""
    | some activity => ", " ++ activity.message

end RamlCheck.Yaml
