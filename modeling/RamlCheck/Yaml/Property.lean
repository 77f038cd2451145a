import RamlCheck.Yaml.Scan
import RamlCheck.Yaml.Token

/-!
# Names, tags and directives

Anchors and aliases are an indicator and a name.  A tag is a handle and a suffix,
in which a `%` and two digits of base sixteen stand for a byte of UTF-8.  A
directive fills a line of its own.
-/

namespace RamlCheck.Yaml

open Scan

/-- The letters, digits and marks that names are made of. -/
def isNameChar (char : Char) : Bool :=
  ('0' ≤ char && char ≤ '9') || ('A' ≤ char && char ≤ 'Z') || ('a' ≤ char && char ≤ 'z')
    || char = '_' || char = '-'

/-- The value of a digit of base sixteen, in either case. -/
def hexValue? (char : Char) : Option Nat :=
  if '0' ≤ char ∧ char ≤ '9' then some (char.toNat - '0'.toNat)
  else if 'a' ≤ char ∧ char ≤ 'f' then some (char.toNat - 'a'.toNat + 10)
  else if 'A' ≤ char ∧ char ≤ 'F' then some (char.toNat - 'A'.toNat + 10)
  else none

/-- The name of an anchor or an alias, behind the indicator that is next. -/
def scanName (activity : Activity) : Scan (List Char) := do
  skip 1
  let name ← takeWhile fun cell => isNameChar cell.char
  let text ← get
  let ended := text.isBlankOrEndAt 0 ||
    ['?', ':', ',', ']', '\x7d', '%', '@', '`'].any fun char => text.ahead? 0 = some char
  if name.isEmpty || !ended then fail (some activity) .nameExpected
  return name

/-! ## Tags -/

/-- The characters of the suffix of a tag.  Inside angle brackets and in
directives, a comma and square brackets belong to it too. -/
def isTagChar (wide : Bool) (char : Char) : Bool :=
  isNameChar char || [';', '/', '?', ':', '@', '&', '=', '+', '$', '.', '!', '~', '*', '\'',
    '(', ')', '%'].contains char || (wide && [',', '[', ']'].contains char)

/-- How many bytes a character has by its first byte. -/
def octetCount? (octet : Nat) : Option Nat :=
  if octet < 0x80 then some 1
  else if 0xC0 ≤ octet ∧ octet < 0xE0 then some 2
  else if 0xE0 ≤ octet ∧ octet < 0xF0 then some 3
  else if 0xF0 ≤ octet ∧ octet < 0xF8 then some 4
  else none

/-- An escaped byte. -/
def scanOctet (activity : Activity) : Scan Nat := do
  let text ← get
  match text.ahead? 0, (text.ahead? 1).bind hexValue?, (text.ahead? 2).bind hexValue? with
  | some '%', some high, some low => return high * 16 + low
  | _, _, _ => fail (some activity) .escapedOctet

/-- The bytes that follow the first one of an escaped character. -/
def scanTrailing (activity : Activity) : Nat → Scan (List UInt8)
  | 0 => return []
  | remaining + 1 => do
      let octet ← scanOctet activity
      if octet < 0x80 ∨ 0xC0 ≤ octet then fail (some activity) .trailingOctet
      skip 3
      return octet.toUInt8 :: (← scanTrailing activity remaining)

/-- The bytes of a character escaped byte by byte.  Only the shape of each byte
counts, so they need not encode a character. -/
def scanEscapedChar (activity : Activity) : Scan (List UInt8) := do
  let octet ← scanOctet activity
  match octetCount? octet with
  | none => fail (some activity) .leadingOctet
  | some count =>
      skip 3
      return octet.toUInt8 :: (← scanTrailing activity (count - 1))

/-- The bytes of a tag's suffix. -/
def scanTagBytes (wide : Bool) (activity : Activity) : Nat → Scan (List UInt8)
  | 0 => return []
  | remaining + 1 => do
      match ← peek with
      | none => return []
      | some '%' =>
          let bytes ← scanEscapedChar activity
          return bytes ++ (← scanTagBytes wide activity remaining)
      | some char =>
          if isTagChar wide char then
            skip 1
            return char.toUInt8 :: (← scanTagBytes wide activity remaining)
          else return []

/-- The suffix of a tag of which some characters are known. -/
def scanSuffix (wide : Bool) (activity : Activity) (known : List Char) (mayBeEmpty : Bool) :
    Scan Tag := do
  let bytes ← scanTagBytes wide activity (← fuel)
  if bytes.isEmpty && !mayBeEmpty then fail (some activity) .tagUri
  return .upToZero (Tag.ofText (String.ofList known) ++ bytes)

/-- The handle of a tag: a `!`, a name, and a `!` again if one is there. -/
def scanHandle (directive : Bool) : Scan (List Char) := do
  let activity := if directive then Activity.tagHandleOfDirective else .tag
  if (← peek) ≠ some '!' then fail (some activity) .tagBang
  skip 1
  let name ← takeWhile fun cell => isNameChar cell.char
  if (← peek) = some '!' then
    skip 1
    return '!' :: name ++ ['!']
  else if directive && !name.isEmpty then fail (some .tagHandle) .tagBang
  else return '!' :: name

/-- A tag. -/
def scanTag (inFlow : Bool) : Scan TagName := do
  let name ← (do
    if (← looksAt (·.ahead? 1 = some '<')) then
      skip 2
      let suffix ← scanSuffix true .parsingTag [] false
      if (← peek) ≠ some '>' then fail (some .tag) .tagClosing
      skip 1
      return { handle := [], suffix }
    else
      let handle ← scanHandle false
      if 1 < handle.length ∧ handle.getLast? = some '!' then
        let suffix ← scanSuffix false .parsingTag [] false
        return { handle, suffix }
      else
        let suffix ← scanSuffix false .parsingTag (handle.drop 1) true
        if suffix.isEmpty then return { handle := [], suffix := .ofText "!" }
        else return { handle := ['!'], suffix } : Scan TagName)
  let text ← get
  if !text.isBlankOrEndAt 0 && !(inFlow && text.ahead? 0 = some ',') then
    fail (some .tag) .tagEnd
  return name

/-! ## Directives -/

/-- A number of a version, of at most nine digits. -/
def scanVersionNumber : Scan Nat := do
  let text ← get
  let digits := text.cells.takeWhile fun cell => '0' ≤ cell.char && cell.char ≤ '9'
  if 9 < digits.length then
    skip 9
    fail (some .versionDirective) .longVersion
  skip digits.length
  if digits.isEmpty then fail (some .versionDirective) .versionMissing
  return digits.foldl (fun value cell => value * 10 + (cell.char.toNat - '0'.toNat)) 0

/-- What follows the name of a directive for the version. -/
def scanVersion : Scan TokenKind := do
  skipGap
  let major ← scanVersionNumber
  if (← peek) ≠ some '.' then fail (some .versionDirective) .versionDigit
  skip 1
  let minor ← scanVersionNumber
  return .versionDirective major minor

/-- What follows the name of a directive for a tag handle. -/
def scanTagPrefix : Scan TokenKind := do
  skipGap
  let handle ← scanHandle true
  if !(← looksAt (·.isGapAt 0)) then fail (some .tagDirective) .tagPrefixGap
  skipGap
  let pre ← scanSuffix true .parsingTagDirective [] false
  if !(← looksAt (·.isBlankOrEndAt 0)) then fail (some .tagDirective) .tagPrefixEnd
  return .tagDirective handle pre

/-- A directive, with its line.  Its token ends before a comment. -/
def scanDirective : Scan Token := do
  let start ← here
  skip 1
  let name ← takeWhile fun cell => isNameChar cell.char
  if name.isEmpty then fail (some .directive) .directiveWithoutName
  if !(← looksAt (·.isBlankOrEndAt 0)) then fail (some .directive) .directiveName
  let kind ← (do
    if name = ['Y', 'A', 'M', 'L'] then scanVersion
    else if name = ['T', 'A', 'G'] then scanTagPrefix
    else fail (some .directive) .unknownDirective : Scan TokenKind)
  let finish ← here
  skipGap
  skipComment
  if !(← looksAt (·.isBreakOrEndAt 0)) then fail (some .directive) .textAfterDirective
  skipBreak
  return { kind, start, finish }

end RamlCheck.Yaml
