import RamlCheck.Yaml.Cell

/-!
# Why a text has no outline

Outlines are read by the stricter rules of YAML 1.2, so they have problems of
their own.  A fault is a problem at a place; its message starts with the line and
column, counted from one.
-/

namespace RamlCheck.Outline

open Yaml (Mark)

/-- What is wrong with a text that has no outline. -/
inductive Problem
  | keyWithoutColon
  | keyExpected
  | textAfterDocument
  | indentation
  | strayCharacter (char : Char)
  | tabIndentation
  | commentGap
  | depthLimit
  | dashInFlow
  | sequenceNotAllowed
  | anchorIndentation
  | dashGap
  | keyNotAllowed
  | gapExpected
  | tabNotAllowed
  | colonGap
  | colonPlacement
  | valueNotAllowed
  | nameExpected
  | tagBang
  | directiveBang
  | tagClosing
  | tagUri
  | tagEnd
  | escapedOctet
  | leadingOctet
  | trailingOctet
  | badOctets
  | directiveWithoutName
  | directiveName
  | textAfterDirective
  | versionDigit
  | longVersion
  | versionMissing
  | tagPrefixStart
  | tagPrefixEnd
  | documentInQuotes
  | endInQuotes
  | quotedIndentation
  | tabInQuotes
  | textAfterQuotes
  | unknownEscape
  | hexNumber
  | badCodePoint
  | flowIndentation
  | dashBeforeFlow
  | tabInPlain
  | emptyPlain
  | zeroIndentation
  | textAfterBlockHeader
  | tabInBlock
  | blockIndentation
  | documentStart
  | duplicateVersion
  | directiveInside
  | unknownAnchor
  | undeclaredHandle
  | nodeContent
  | blockKeyExpected
  | dashExpected
  | commaOrBrace
  | commaOrBracket
  | tagUsed
  | anchorUsed
  | keyNotScalar
  | rootNotMapping
  deriving DecidableEq, Repr

/-- The wording of a problem. -/
def Problem.message : Problem → String
  | .keyWithoutColon => "simple key expect ':'"
  | .keyExpected => "simple key expected"
  | .textAfterDocument => "invalid content after document end marker"
  | .indentation => "invalid indentation"
  | .strayCharacter char => "unexpected character: `" ++ char.toString ++ "'"
  | .tabIndentation => "tabs disallowed within this context (block indentation)"
  | .commentGap => "comments must be separated from other tokens by whitespace"
  | .depthLimit => "recursion limit exceeded"
  | .dashInFlow => "\"-\" is only valid inside a block"
  | .sequenceNotAllowed => "block sequence entries are not allowed in this context"
  | .anchorIndentation => "invalid indentation for anchor"
  | .dashGap => "'-' must be followed by a valid YAML whitespace"
  | .keyNotAllowed => "mapping keys are not allowed in this context"
  | .gapExpected => "expected whitespace"
  | .tabNotAllowed => "tabs disallowed in this context"
  | .colonGap => "':' must be followed by a valid YAML whitespace"
  | .colonPlacement => "illegal placement of ':' indicator"
  | .valueNotAllowed => "mapping values are not allowed in this context"
  | .nameExpected =>
      "while scanning an anchor or alias, did not find expected alphabetic or numeric character"
  | .tagBang => "while scanning a tag, did not find expected '!'"
  | .directiveBang => "while parsing a tag directive, did not find expected '!'"
  | .tagClosing => "while scanning a verbatim tag, did not find the expected '>'"
  | .tagUri => "while parsing a tag, did not find expected tag URI"
  | .tagEnd => "while scanning a tag, did not find expected whitespace or line break"
  | .escapedOctet => "while parsing a tag, found an invalid escape sequence"
  | .leadingOctet => "while parsing a tag, found an incorrect leading UTF-8 byte"
  | .trailingOctet => "while parsing a tag, found an incorrect trailing UTF-8 byte"
  | .badOctets => "while parsing a tag, found an invalid UTF-8 codepoint"
  | .directiveWithoutName => "while scanning a directive, could not find expected directive name"
  | .directiveName => "while scanning a directive, found unexpected non-alphabetical character"
  | .textAfterDirective =>
      "while scanning a directive, did not find expected comment or line break"
  | .versionDigit =>
      "while scanning a YAML directive, did not find expected digit or '.' character"
  | .longVersion => "while scanning a YAML directive, found extremely long version number"
  | .versionMissing => "while scanning a YAML directive, did not find expected version number"
  | .tagPrefixStart => "invalid global tag character"
  | .tagPrefixEnd => "while scanning TAG, did not find expected whitespace or line break"
  | .documentInQuotes =>
      "while scanning a quoted scalar, found unexpected document indicator"
  | .endInQuotes => "while scanning a quoted scalar, found unexpected end of stream"
  | .quotedIndentation => "invalid indentation in quoted scalar"
  | .tabInQuotes => "tab cannot be used as indentation"
  | .textAfterQuotes => "invalid trailing content after double-quoted scalar"
  | .unknownEscape => "while parsing a quoted scalar, found unknown escape character"
  | .hexNumber => "while parsing a quoted scalar, did not find expected hexadecimal number"
  | .badCodePoint =>
      "while parsing a quoted scalar, found invalid Unicode character escape code"
  | .flowIndentation => "invalid indentation in flow construct"
  | .dashBeforeFlow => "plain scalar cannot start with '-' followed by ,[]\x7b\x7d"
  | .tabInPlain => "while scanning a plain scalar, found a tab"
  | .emptyPlain => "unexpected end of plain scalar"
  | .zeroIndentation =>
      "while scanning a block scalar, found an indentation indicator equal to 0"
  | .textAfterBlockHeader =>
      "while scanning a block scalar, did not find expected comment or line break"
  | .tabInBlock => "a block scalar content cannot start with a tab"
  | .blockIndentation => "wrongly indented line in block scalar"
  | .documentStart => "did not find expected <document start>"
  | .duplicateVersion => "duplicate version directive"
  | .directiveInside => "missing explicit document end marker before directive"
  | .unknownAnchor => "while parsing node, found unknown anchor"
  | .undeclaredHandle => "the handle wasn't declared"
  | .nodeContent => "while parsing a node, did not find expected node content"
  | .blockKeyExpected => "while parsing a block mapping, did not find expected key"
  | .dashExpected =>
      "while parsing a block collection, did not find expected '-' indicator"
  | .commaOrBrace => "while parsing a flow mapping, did not find expected ',' or '\x7d'"
  | .commaOrBracket => "while parsing a flow sequence, expected ',' or ']'"
  | .tagUsed => "Unexpected use of YAML tag"
  | .anchorUsed => "Unexpected definition of anchor"
  | .keyNotScalar => "Keys in mappings must be scalar"
  | .rootNotMapping => "Top level must be a mapping"

/-- A problem and the place where it showed. -/
structure Fault where
  problem : Problem
  mark : Mark
  deriving DecidableEq, Repr

/-- The wording of a fault: its line and column, counted from one, and its
problem. -/
def Fault.message (fault : Fault) : String :=
  toString (fault.mark.line + 1) ++ ":" ++ toString (fault.mark.column + 1) ++ ": "
    ++ fault.problem.message

end RamlCheck.Outline
