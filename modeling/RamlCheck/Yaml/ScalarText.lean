import RamlCheck.Yaml.Property

/-!
# Texts of scalars

A scalar is written plainly, in quotes or as a block.  In the first two, lines
are folded: a single break between two of them becomes a space, and of several
breaks the first one is dropped.  `Spaces` holds what stands between two words
until it is known whether a word follows.

A block keeps its lines, or folds those that do not start with a blank, and cuts
the breaks at its end as its header says.
-/

namespace RamlCheck.Yaml

open Scan

/-! ## Between words -/

/-- What stands between two words: the blanks of a line, or the first break and
the others.  `broken` says that a line has ended. -/
structure Spaces where
  gap : List Char
  firstBreak : List Char
  otherBreaks : List Char
  broken : Bool
  deriving DecidableEq, Repr

namespace Spaces

/-- Nothing between two words. -/
def none : Spaces :=
  { gap := [], firstBreak := [], otherBreaks := [], broken := false }

/-- What the space between two words means. -/
def meaning (spaces : Spaces) : List Char :=
  if !spaces.broken then spaces.gap
  else if spaces.firstBreak.head? = some '\n' then
    if spaces.otherBreaks.isEmpty then [' '] else spaces.otherBreaks
  else spaces.firstBreak ++ spaces.otherBreaks

/-- The spaces with one more cell. -/
def push (spaces : Spaces) (cell : Cell) : Spaces :=
  if cell.isBreak then
    if spaces.broken then { spaces with otherBreaks := spaces.otherBreaks ++ [cell.char] }
    else { spaces with gap := [], firstBreak := [cell.char], broken := true }
  else if spaces.broken then spaces
  else { spaces with gap := spaces.gap ++ [cell.char] }

end Spaces

/-- A space, a tab or a break. -/
def Cell.isSpace (cell : Cell) : Bool :=
  cell.isBreak || cell.char = ' ' || cell.char = '\t'

/-- Takes the spaces in front.  A tab that would indent a later line by less than
`indent` columns is a fault. -/
def takeSpaces (indent : Nat) : Nat → Spaces → Scan Spaces
  | 0, spaces => return spaces
  | remaining + 1, spaces => do
      match (← get).cells with
      | [] => return spaces
      | cell :: _ =>
          if !cell.isSpace then return spaces
          else if spaces.broken && cell.char = '\t' && decide (cell.mark.column < indent) then
            fail (some .plainScalar) .tabInPlain
          else
            skip 1
            takeSpaces indent remaining (spaces.push cell)

/-! ## Plain scalars -/

/-- Whether a character ends a plain scalar in a flow collection. -/
def isFlowIndicator (char : Char) : Bool :=
  char = ',' || char = '[' || char = ']' || char = '\x7b' || char = '\x7d'

/-- The length of the word that some cells start with, and whether it ends at a
`:` that is not allowed there. -/
def plainWord (inFlow : Bool) : List Cell → Nat × Bool
  | [] => (0, false)
  | cell :: rest =>
      let next := rest.head?
      let nextIsFlow := next.any fun cell => isFlowIndicator cell.char || cell.char = '?'
      if cell.isSpace then (0, false)
      else if inFlow && cell.char = ':' && nextIsFlow then (0, true)
      else if cell.char = ':' && (next.isNone || next.any Cell.isSpace) then (0, false)
      else if inFlow && isFlowIndicator cell.char then (0, false)
      else
        let (length, misplaced) := plainWord inFlow rest
        (length + 1, misplaced)

/-- The words of a plain scalar, with the text so far and the spaces behind it.
The result says whether a line has ended behind the last word. -/
def plainWords (inFlow : Bool) (indent : Nat) : Nat → List Char → Spaces →
    Scan (List Char × Bool)
  | 0, text, spaces => return (text, spaces.broken)
  | remaining + 1, text, spaces => do
      if (← looksAt (·.atDocumentIndicator)) || (← peek) = some '#' then
        return (text, spaces.broken)
      let (length, misplaced) := plainWord inFlow (← get).cells
      let word := ((← get).cells.take length).map (·.char)
      skip length
      if misplaced then fail (some .plainScalar) .colonInFlow
      let (text, spaces) :=
        if word.isEmpty then (text, spaces) else (text ++ spaces.meaning ++ word, Spaces.none)
      if !(← looksAt fun text => text.isGapAt 0 || text.isBreakAt 0) then
        return (text, spaces.broken)
      let spaces ← takeSpaces indent (← fuel) spaces
      if !inFlow && decide ((← here).column < indent) then return (text, spaces.broken)
      plainWords inFlow indent remaining text spaces

/-! ## Scalars in quotes -/

/-- What an escape by one letter means. -/
def escapeMeaning? (char : Char) : Option Char :=
  match char with
  | '0' => some '\x00'
  | 'a' => some '\x07'
  | 'b' => some '\x08'
  | 't' => some '\t'
  | '\t' => some '\t'
  | 'n' => some '\n'
  | 'v' => some '\x0b'
  | 'f' => some '\x0c'
  | 'r' => some '\r'
  | 'e' => some '\x1b'
  | ' ' => some ' '
  | '"' => some '"'
  | '/' => some '/'
  | '\\' => some '\\'
  | 'N' => some '\u0085'
  | '_' => some '\u00a0'
  | 'L' => some '\u2028'
  | 'P' => some '\u2029'
  | _ => none

/-- How many digits follow an escape by code point. -/
def escapeDigits? (char : Char) : Option Nat :=
  match char with
  | 'x' => some 2
  | 'u' => some 4
  | 'U' => some 8
  | _ => none

/-- The character of an escape that is next. -/
def scanEscape : Scan Char := do
  let letter := ((← get).ahead? 1).getD '\x00'
  match escapeMeaning? letter, escapeDigits? letter with
  | some char, _ =>
      skip 2
      return char
  | none, none => fail (some .escape) .unknownEscape
  | none, some count =>
      skip 2
      let digits := ((← get).cells.take count).map (·.char)
      match digits.mapM hexValue? with
      | none => fail (some .escape) .hexNumber
      | some values =>
          if values.length < count then fail (some .escape) .hexNumber
          let point := values.foldl (fun value digit => value * 16 + digit) 0
          if (0xD800 ≤ point ∧ point ≤ 0xDFFF) ∨ 0x10FFFF < point then
            fail (some .escape) .badCodePoint
          skip count
          return Char.ofNat point

/-- The characters up to a space, the closing quote or an escaped break.  The
result says whether it is an escaped break, which is taken. -/
def quotedWord (single : Bool) : Nat → Scan (List Char × Bool)
  | 0 => return ([], false)
  | remaining + 1 => do
      let text ← get
      match text.ahead? 0 with
      | none => return ([], false)
      | some char =>
          if text.isBlankOrEndAt 0 then return ([], false)
          else if single && char = '\'' && text.ahead? 1 = some '\'' then
            skip 2
            let (word, broken) ← quotedWord single remaining
            return ('\'' :: word, broken)
          else if char = (if single then '\'' else '"') then return ([], false)
          else if !single && char = '\\' && text.isBreakAt 1 then
            skip 2
            return ([], true)
          else if !single && char = '\\' then
            let meaning ← scanEscape
            let (word, broken) ← quotedWord single remaining
            return (meaning :: word, broken)
          else
            skip 1
            let (word, broken) ← quotedWord single remaining
            return (char :: word, broken)

/-- The text of a scalar in quotes, behind the opening one. -/
def quotedText (single : Bool) : Nat → List Char → Scan (List Char)
  | 0, text => return text
  | remaining + 1, text => do
      if (← looksAt (·.atDocumentIndicator)) then fail (some .quotedScalar) .documentInQuotes
      if (← looksAt (·.isEndAt 0)) then fail (some .quotedScalar) .endInQuotes
      let (word, broken) ← quotedWord single (← fuel)
      let text := text ++ word
      if (← peek) = some (if single then '\'' else '"') then
        skip 1
        return text
      let spaces ← takeSpaces 0 (← fuel) { Spaces.none with broken }
      quotedText single remaining (text ++ spaces.meaning)

/-! ## Blocks -/

/-- What becomes of the breaks at the end of a block. -/
inductive Chomping
  | strip
  | clip
  | keep
  deriving DecidableEq, Repr

/-- The chomping that an indicator asks for. -/
def Chomping.ofChar? (char : Option Char) : Option Chomping :=
  if char = some '+' then some .keep else if char = some '-' then some .strip else none

/-- An indicator of chomping, if one is next. -/
def scanChomping : Scan (Option Chomping) := do
  let chomping := Chomping.ofChar? (← peek)
  if chomping.isSome then skip 1
  return chomping

/-- An indicator of indentation, if one is next. -/
def scanIncrement : Scan (Option Nat) := do
  match ← peek with
  | none => return none
  | some char =>
      if char = '0' then fail (some .blockScalar) .zeroIndentation
      else if '1' ≤ char ∧ char ≤ '9' then
        skip 1
        return some (char.toNat - '0'.toNat)
      else return none

/-- The indicators in the header of a block, in either order. -/
def scanBlockHeader : Scan (Chomping × Option Nat) := do
  match ← scanChomping with
  | some chomping => return (chomping, ← scanIncrement)
  | none =>
      match ← scanIncrement with
      | none => return (.clip, none)
      | some increment => return ((← scanChomping).getD .clip, some increment)

/-- The empty lines in front of a line of a block, and the spaces that indent it:
up to `indent` of them, or all if the indentation is not known yet.  The result
holds the breaks and the greatest column reached. -/
def blockBreaks (indent : Option Nat) : Nat → Nat → List Char → Scan (List Char × Nat)
  | 0, reached, breaks => return (breaks, reached)
  | remaining + 1, reached, breaks => do
      let isIndentation := fun (cell : Cell) =>
        cell.char = ' ' && indent.all fun indent => decide (cell.mark.column < indent)
      discard (takeWhile isIndentation)
      let column := (← here).column
      let reached := max reached column
      let text ← get
      if indent.all (fun indent => decide (column < indent)) && text.ahead? 0 = some '\t' then
        fail (some .blockScalar) .tabInBlock
      if text.isBreakAt 0 then
        skip 1
        blockBreaks indent remaining reached (breaks ++ (text.ahead? 0).toList)
      else return (breaks, reached)

/-- The lines of a block that is indented by some columns.  `text` is what came
before, `firstBreak` the break behind its last line, `otherBreaks` those of the
empty lines after it, and `afterBlank` says that this line starts with a blank. -/
def blockLines (literal : Bool) (indent : Nat) : Nat → (text firstBreak otherBreaks : List Char) →
    (afterBlank : Bool) → Scan (List Char × List Char × List Char)
  | 0, text, firstBreak, otherBreaks, _ => return (text, firstBreak, otherBreaks)
  | remaining + 1, text, firstBreak, otherBreaks, afterBlank => do
      let state ← get
      if state.here.column ≠ indent ∨ state.isEndAt 0 then
        return (text, firstBreak, otherBreaks)
      let startsBlank := state.isGapAt 0
      let between :=
        if !literal && firstBreak.head? = some '\n' && !afterBlank && !startsBlank then
          if otherBreaks.isEmpty then [' '] else otherBreaks
        else firstBreak ++ otherBreaks
      let line ← takeWhile fun cell => !cell.isBreak
      let ending := ((← get).ahead? 0).toList
      skipBreak
      let (breaks, _) ← blockBreaks (some indent) (← fuel) 0 []
      blockLines literal indent remaining (text ++ between ++ line) ending breaks startsBlank

/-- The text of a block, behind `|` or `>`, inside a block collection that is
indented by `parent` columns; without one, `parent` is `-1`. -/
def scanBlock (literal : Bool) (parent : Int) : Scan (List Char) := do
  let (chomping, increment) ← scanBlockHeader
  skipGap
  skipComment
  if !(← looksAt (·.isBreakOrEndAt 0)) then fail (some .blockScalar) .textAfterBlockHeader
  skipBreak
  let given := increment.map fun increment => parent.toNat + increment
  let (breaks, reached) ← blockBreaks given (← fuel) 0 []
  let indent := given.getD (max (max reached (parent + 1).toNat) 1)
  let (text, firstBreak, otherBreaks) ← blockLines literal indent (← fuel) [] [] breaks false
  match chomping with
  | .strip => return text
  | .clip => return text ++ firstBreak
  | .keep => return text ++ firstBreak ++ otherBreaks

end RamlCheck.Yaml
