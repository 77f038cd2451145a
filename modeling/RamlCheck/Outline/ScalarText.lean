import RamlCheck.Outline.Lexing
import RamlCheck.Yaml.ScalarText

/-!
# Texts of scalars in an outline

Lines of a scalar are folded as everywhere in YAML.  What differs is what the
lines of a scalar have to look like: they are indented further than the
collection they stand in, also between quotes, and by spaces alone.
-/

namespace RamlCheck.Outline

open Yaml (Mark Marked Spaces Chomping)
open Outline.Lex

/-! ## Scalars in quotes -/

/-- The character of an escape that is next. -/
def scanEscape (start : Mark) : Lex Char := do
  let letter := ((← get).text.ahead? 1).getD '\x00'
  match Yaml.escapeMeaning? letter, Yaml.escapeDigits? letter with
  | some char, _ =>
      skip 2
      return char
  | none, none => failAt start .unknownEscape
  | none, some count =>
      skip 2
      let digits := ((← get).text.cells.take count).map (·.char)
      match digits.mapM Yaml.hexValue? with
      | none => failAt start .hexNumber
      | some values =>
          if values.length < count then failAt start .hexNumber
          let point := values.foldl (fun value digit => value * 16 + digit) 0
          if point.isValidChar then
            skip count
            return Char.ofNat point
          else failAt start .badCodePoint

/-- The characters up to a space, the closing quote or an escaped break.  The
result says whether it is an escaped break, which is taken. -/
def quotedWord (single : Bool) (start : Mark) : Nat → Lex (List Char × Bool)
  | 0 => return ([], false)
  | remaining + 1 => do
      let text := (← get).text
      match text.ahead? 0 with
      | none => return ([], false)
      | some char =>
          if text.isBlankOrEndAt 0 then return ([], false)
          else if single && char = '\'' && text.ahead? 1 = some '\'' then
            skip 2
            let (word, broken) ← quotedWord single start remaining
            return ('\'' :: word, broken)
          else if char = (if single then '\'' else '"') then return ([], false)
          else if !single && char = '\\' && text.isBreakAt 1 then
            skip 1
            skipBreak
            return ([], true)
          else if !single && char = '\\' then
            let meaning ← scanEscape start
            let (word, broken) ← quotedWord single start remaining
            return (meaning :: word, broken)
          else
            skip 1
            let (word, broken) ← quotedWord single start remaining
            return (char :: word, broken)

/-- Takes the spaces between two words in quotes.  A tab does not indent a
line. -/
def takeQuotedSpaces : Nat → Spaces → Lex Spaces
  | 0, spaces => return spaces
  | remaining + 1, spaces => do
      let state ← get
      match state.text.cells with
      | [] => return spaces
      | cell :: _ =>
          if !cell.isSpace then return spaces
          else if spaces.broken && cell.char = '\t' && decide (cell.mark.column < state.indent) then
            fail .tabInQuotes
          else
            if cell.isBreak then skipBreak else skipGap
            takeQuotedSpaces remaining (spaces.push cell)

/-- The words of a scalar in quotes, behind the text so far. -/
def quotedWords (single : Bool) (start : Mark) : Nat → List Char → Lex (List Char)
  | 0, text => return text
  | remaining + 1, text => do
      let state ← get
      if state.text.atDocumentIndicator then failAt start .documentInQuotes
      if state.text.isEndAt 0 then failAt start .endInQuotes
      if state.text.here.column < state.indent then failAt start .quotedIndentation
      let (word, broken) ← quotedWord single start (← fuel)
      let text := text ++ word
      if (← peek) = some (if single then '\'' else '"') then
        skip 1
        return text
      let spaces ← takeQuotedSpaces (← fuel) { Spaces.none with broken }
      quotedWords single start remaining (text ++ spaces.meaning)

/-- Whether what follows a scalar in quotes on its line is allowed there. -/
def mayFollowQuotes (text : Marked) (flow sameLine : Bool) : Bool :=
  text.isBreakOrEndAt 0
    || (flow && [',', '\x7d', ']', ':'].any fun char => text.ahead? 0 = some char)
    || (text.ahead? 0 = some ':' && sameLine)

/-- The text of a scalar in quotes, which are next. -/
def scanQuoted (single : Bool) : Lex (List Char) := do
  let start ← here
  skip 1
  let text ← quotedWords single start (← fuel) []
  discard skipToLineEnd
  let flow ← inFlow
  let sameLine := decide (start.line = (← here).line)
  if !(← looksAt fun text => mayFollowQuotes text flow sameLine) then fail .textAfterQuotes
  return text

/-! ## Plain scalars -/

/-- The length of the word that some cells start with. -/
def plainWordLength (flow : Bool) : List Yaml.Cell → Nat
  | [] => 0
  | cell :: rest =>
      let next := rest.head?
      if cell.isSpace then 0
      else if cell.char = ':' && (next.all Yaml.Cell.isSpace
          || (flow && next.any fun cell => Yaml.isFlowIndicator cell.char)) then 0
      else if flow && Yaml.isFlowIndicator cell.char then 0
      else plainWordLength flow rest + 1

/-- Takes the spaces between two words of a plain scalar that is indented by some
columns.  A tab may indent an empty line only. -/
def takePlainSpaces (start : Mark) (indent : Int) : Nat → Spaces → Lex Spaces
  | 0, spaces => return spaces
  | remaining + 1, spaces => do
      match (← get).text.cells with
      | [] => return spaces
      | cell :: _ =>
          if !cell.isSpace then return spaces
          else if cell.isBreak then
            skipBreak
            takePlainSpaces start indent remaining (spaces.push cell)
          else if spaces.broken && cell.char = '\t' && decide (cell.mark.column < indent) then
            discard skipToLineEnd
            if !(← looksAt (·.isBreakOrEndAt 0)) then failAt start .tabInPlain
            takePlainSpaces start indent remaining spaces
          else
            skipGap
            takePlainSpaces start indent remaining (spaces.push cell)

/-- The words of a plain scalar, with the text so far and the spaces behind
it. -/
def plainWords (start : Mark) (indent : Int) : Nat → List Char → Spaces → Lex (List Char)
  | 0, text, _ => return text
  | remaining + 1, text, spaces => do
      let flow ← inFlow
      let ahead := (← get).text
      if ahead.atDocumentIndicator || ahead.ahead? 0 = some '#' then return text
      if flow && ahead.ahead? 0 = some '-' && (ahead.ahead? 1).any Yaml.isFlowIndicator then
        fail .dashBeforeFlow
      let length := plainWordLength flow ahead.cells
      let word := (ahead.cells.take length).map (·.char)
      if !word.isEmpty then skip length
      let (text, spaces) :=
        if word.isEmpty then (text, spaces) else (text ++ spaces.meaning ++ word, Spaces.none)
      if !(← looksAt fun text => text.isGapAt 0 || text.isBreakAt 0) then return text
      let spaces ← takePlainSpaces start indent (← fuel) spaces
      if !flow && decide ((← here).column < indent) then return text
      plainWords start indent remaining text spaces

/-- The text of a plain scalar.  If a line has ended behind it, a key may
start. -/
def scanPlain : Lex (List Char) := do
  leaveContentIndents
  let start ← here
  let indent := (← get).indent + 1
  if (← inFlow) && decide (start.column < indent) then failAt start .flowIndentation
  let text ← plainWords start indent (← fuel) [] Spaces.none
  if (← get).atLineStart then allowKey true
  if text.isEmpty then failAt start .emptyPlain
  return text

/-! ## Blocks -/

/-- An indicator of chomping, if one is next. -/
def scanChomping : Lex (Option Chomping) := do
  let chomping := Chomping.ofChar? (← peek)
  if chomping.isSome then skip 1
  return chomping

/-- An indicator of indentation, if one is next; zero is none. -/
def scanIncrement (start : Mark) : Lex Nat := do
  match ← peek with
  | none => return 0
  | some char =>
      if char = '0' then failAt start .zeroIndentation
      else if '1' ≤ char ∧ char ≤ '9' then
        skip 1
        return char.toNat - '0'.toNat
      else return 0

/-- The indicators in the header of a block, in either order. -/
def scanBlockHeader (start : Mark) : Lex (Chomping × Nat) := do
  match ← scanChomping with
  | some chomping => return (chomping, ← scanIncrement start)
  | none =>
      let increment ← scanIncrement start
      if increment = 0 then return (.clip, 0)
      else return ((← scanChomping).getD .clip, increment)

/-- The empty lines in front of a line of a block, and the spaces that indent it:
up to `indent` of them, or all if the indentation is not known yet.  The result
holds the breaks and the greatest column reached. -/
def blockBreaks (indent : Option Nat) : Nat → Nat → List Char → Lex (List Char × Nat)
  | 0, reached, breaks => return (breaks, reached)
  | remaining + 1, reached, breaks => do
      let indentation := (← get).text.cells.takeWhile fun cell =>
        cell.char = ' ' && indent.all fun indent => decide (cell.mark.column < indent)
      drop indentation.length
      let reached := max reached (← here).column
      if (← looksAt (·.isBreakAt 0)) then
        skipBreak
        blockBreaks indent remaining reached (breaks ++ ['\n'])
      else return (breaks, reached)

/-- What the lines of a block make: its text, the break behind its last line, and
those of the empty lines after it. -/
structure BlockText where
  text : List Char
  ending : List Char
  others : List Char

/-- The lines of a block that is indented by some columns, behind what came
before.  `afterBlank` says that the line before starts with a blank. -/
def blockLines (literal : Bool) (indent : Nat) : Nat → BlockText → (afterBlank : Bool) →
    Lex BlockText
  | 0, block, _ => return block
  | remaining + 1, block, afterBlank => do
      let ahead := (← get).text
      if ahead.here.column ≠ indent ∨ ahead.isEndAt 0
          ∨ (indent = 0 ∧ ahead.atDocumentIndicator) then
        return block
      let startsBlank := ahead.isGapAt 0
      let between :=
        if !literal && !block.ending.isEmpty && !afterBlank && !startsBlank then
          if block.others.isEmpty then [' '] else block.others
        else block.ending ++ block.others
      let line := ahead.cells.takeWhile fun cell => !cell.isBreak
      drop line.length
      let text := block.text ++ between ++ line.map (·.char)
      if (← looksAt (·.isEndAt 0)) then return { text, ending := [], others := [] }
      skipBreak
      let (others, _) ← blockBreaks (some indent) (← fuel) 0 []
      blockLines literal indent remaining { text, ending := ['\n'], others } startsBlank

/-- The text of a block without any line, by its chomping: `headed` says that a
break ends its header. -/
def emptyBlock (chomping : Chomping) (headed sameLine : Bool) (breaks : List Char) :
    List Char :=
  let ending := if headed then ['\n'] else []
  match chomping with
  | .strip => []
  | .clip => if sameLine then [] else ending
  | .keep => if sameLine then [] else if breaks.isEmpty then ending else breaks

/-- The text of a block, behind the place where it starts, and the place to which
it is put down: that of its first line, if it has one. -/
def scanBlock (literal : Bool) : Lex (List Char × Mark) := do
  let start ← here
  skip 1
  leaveContentIndents
  let (chomping, increment) ← scanBlockHeader start
  discard skipToLineEnd
  if !(← looksAt (·.isBreakOrEndAt 0)) then failAt start .textAfterBlockHeader
  let headed ← looksAt (·.isBreakAt 0)
  if headed then skipBreak
  if (← peek) = some '\t' then failAt start .tabInBlock
  let parent := (← get).indent
  let given := if increment = 0 then none else some (parent.toNat + increment)
  let (breaks, reached) ← blockBreaks given (← fuel) 0 []
  let found := max reached (parent + 1).toNat
  let indent := given.getD (if 0 < parent then max found 1 else found)
  let first ← here
  if (← looksAt (·.isEndAt 0)) then
    return (emptyBlock chomping headed (decide (first.line = start.line)) breaks, start)
  if first.column < indent && decide (parent < first.column) then fail .blockIndentation
  let block ← blockLines literal indent (← fuel) { text := [], ending := [], others := breaks } false
  let atEnd ← looksAt (·.isEndAt 0)
  let last := if atEnd && decide (max indent 1 ≤ (← here).column) then ['\n'] else []
  match chomping with
  | .strip => return (block.text, first)
  | .clip => return (block.text ++ block.ending ++ last, first)
  | .keep => return (block.text ++ block.ending ++ last ++ block.others, first)

end RamlCheck.Outline
