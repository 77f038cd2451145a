import RamlCheck.Outline.Lexing
import RamlCheck.Yaml.Property
import RamlCheck.Yaml.ScalarText

/-!
# Names, tags and directives of an outline

An outline holds neither anchors nor tags, yet where they stand decides how a
text is cut, so they are read as the tokens they are.  What is wrong with a tag or
a directive shows at its start.
-/

namespace RamlCheck.Outline

open Yaml (Mark Marked Token TokenKind Tag TagName)
open Outline.Lex

/-- A character that ends no name of an anchor. -/
def isAnchorChar (char : Char) : Bool :=
  !(char = ' ' || char = '\t' || char = '\n' || char = '\r' || char = '\ufeff'
    || Yaml.isFlowIndicator char)

/-- The name of an anchor or an alias, behind the indicator that is next. -/
def scanName : Lex (List Char) := do
  let start ← here
  skip 1
  let name ← takeWhile isAnchorChar
  if name.isEmpty then failAt start .nameExpected
  return name

/-! ## Tags -/

/-- A character of a verbatim tag or of the prefix of a handle. -/
def isUriChar (char : Char) : Bool :=
  Yaml.isNameChar char || ['#', ';', '/', '?', ':', '@', '&', '=', '+', '$', ',', '.', '!', '~',
    '*', '\'', '(', ')', '[', ']', '%'].contains char

/-- A character of the suffix of a tag. -/
def isTagChar (char : Char) : Bool :=
  isUriChar char && !Yaml.isFlowIndicator char && char ≠ '!'

/-- An escaped byte. -/
def scanOctet (start : Mark) : Lex Nat := do
  let text := (← get).text
  match text.ahead? 0, (text.ahead? 1).bind Yaml.hexValue?, (text.ahead? 2).bind Yaml.hexValue? with
  | some '%', some high, some low => return high * 16 + low
  | _, _, _ => failAt start .escapedOctet

/-- The bytes that follow the first one of an escaped character, which are joined
as they are. -/
def scanTrailing (start : Mark) : Nat → Nat → Lex Nat
  | 0, joined => return joined
  | remaining + 1, joined => do
      let octet ← scanOctet start
      if octet < 0x80 ∨ 0xC0 ≤ octet then failAt start .trailingOctet
      skip 3
      scanTrailing start remaining (joined * 256 + octet)

/-- A character escaped byte by byte.  Its joined bytes have to be a code point
themselves. -/
def scanEscapedChar (start : Mark) : Lex Char := do
  let octet ← scanOctet start
  match Yaml.octetCount? octet with
  | none => failAt start .leadingOctet
  | some count =>
      skip 3
      let joined ← scanTrailing start (count - 1) octet
      if joined.isValidChar then return Char.ofNat joined else failAt start .badOctets

/-- The characters in front that pass a test, escapes resolved. -/
def scanTagChars (test : Char → Bool) (start : Mark) : Nat → Lex (List Char)
  | 0 => return []
  | remaining + 1 => do
      match ← peek with
      | none => return []
      | some char =>
          if !test char then return []
          else if char = '%' then
            let char ← scanEscapedChar start
            return char :: (← scanTagChars test start remaining)
          else
            skip 1
            return char :: (← scanTagChars test start remaining)

/-- The handle of a tag: a `!`, a name, and a `!` again if one is there. -/
def scanHandle (directive : Bool) (start : Mark) : Lex (List Char) := do
  if (← peek) ≠ some '!' then failAt start .tagBang
  skip 1
  let name ← takeWhile Yaml.isNameChar
  if (← peek) = some '!' then
    skip 1
    return '!' :: name ++ ['!']
  else if directive && !name.isEmpty then failAt start .directiveBang
  else return '!' :: name

/-- A tag between angle brackets. -/
def scanVerbatim (start : Mark) : Lex TagName := do
  skip 2
  let suffix ← scanTagChars isUriChar start (← fuel)
  if (← peek) ≠ some '>' then failAt start .tagClosing
  skip 1
  return { handle := [], suffix := .ofText (String.ofList suffix) }

/-- A tag with a handle. -/
def scanShorthand (start : Mark) : Lex TagName := do
  let handle ← scanHandle false start
  let chars ← scanTagChars isTagChar start (← fuel)
  if 1 < handle.length ∧ handle.getLast? = some '!' then
    if chars.isEmpty then failAt start .tagUri
    return { handle, suffix := .ofText (String.ofList chars) }
  else
    let suffix := handle.drop 1 ++ chars
    if suffix.isEmpty then return { handle := [], suffix := .ofText "!" }
    else return { handle := ['!'], suffix := .ofText (String.ofList suffix) }

/-- A tag. -/
def scanTag : Lex TagName := do
  let start ← here
  let verbatim ← looksAt (·.ahead? 1 = some '<')
  let name ← (if verbatim then scanVerbatim start else scanShorthand start : Lex TagName)
  let flow ← inFlow
  let ended ← looksAt fun text =>
    text.isBlankOrEndAt 0 || (flow && (text.ahead? 0).any Yaml.isFlowIndicator)
  if !ended then failAt start .tagEnd
  return name

/-! ## Directives -/

/-- A number of a version, of at most nine digits. -/
def scanVersionNumber (start : Mark) : Lex Nat := do
  let digits ← takeWhile fun char => '0' ≤ char && char ≤ '9'
  if 9 < digits.length then failAt start .longVersion
  if digits.isEmpty then failAt start .versionMissing
  return digits.foldl (fun value digit => value * 10 + (digit.toNat - '0'.toNat)) 0

/-- What follows the name of a directive for the version. -/
def scanVersion (start : Mark) : Lex TokenKind := do
  skipGaps
  let major ← scanVersionNumber start
  if (← peek) ≠ some '.' then failAt start .versionDigit
  skip 1
  let minor ← scanVersionNumber start
  return .versionDirective major minor

/-- What follows the name of a directive for a tag handle. -/
def scanTagPrefix (start : Mark) : Lex TokenKind := do
  skipGaps
  let handle ← scanHandle true start
  skipGaps
  let first ← peek
  if !(first.any fun char => char = '!' || isTagChar char) then failAt start .tagPrefixStart
  let pre ← scanTagChars isUriChar start (← fuel)
  if !(← looksAt (·.isBlankOrEndAt 0)) then failAt start .tagPrefixEnd
  return .tagDirective handle (.ofText (String.ofList pre))

/-- A directive, with its line.  One that is not known counts as one that defines
nothing. -/
def scanDirective : Lex TokenKind := do
  let start ← here
  skip 1
  let name ← takeWhile Yaml.isNameChar
  if name.isEmpty then failAt start .directiveWithoutName
  if !(← looksAt (·.isBlankOrEndAt 0)) then failAt start .directiveName
  let kind ← (do
    if name = ['Y', 'A', 'M', 'L'] then scanVersion start
    else if name = ['T', 'A', 'G'] then scanTagPrefix start
    else
      skipLine
      return .tagDirective [] [] : Lex TokenKind)
  discard skipToLineEnd
  if !(← looksAt (·.isBreakOrEndAt 0)) then failAt start .textAfterDirective
  if (← looksAt (·.isBreakAt 0)) then skipBreak
  return kind

end RamlCheck.Outline
