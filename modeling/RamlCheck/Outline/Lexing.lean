import RamlCheck.Outline.Fault
import RamlCheck.Yaml.Scan
import RamlCheck.Yaml.Token

/-!
# Between two tokens

`Lexing` is what is known while a text is cut into tokens for its outline:
besides the text that is left, the indentations, the tokens that may turn out to
be keys, and whether a mapping of a single pair is open in a flow sequence.

Indentations come in two kinds.  Those of block collections end with a token;
the others only ask the content of a value to be indented.
-/

namespace RamlCheck.Outline

open Yaml (Mark Marked Token TokenKind)

/-- The tokens of a text up to its end, or up to a fault. -/
structure TokenList where
  tokens : List Token
  fault : Option Fault
  deriving DecidableEq, Repr

/-- A token that may turn out to start a mapping key: how many tokens come before
it, its place, and whether it has to be a key. -/
structure KeyCandidate where
  number : Nat
  mark : Mark
  required : Bool
  deriving DecidableEq, Repr

/-- An indentation that has been left for a deeper one, and whether the deeper
one belongs to a block collection. -/
structure Indent where
  outer : Int
  ofBlock : Bool
  deriving DecidableEq, Repr

/-- What is known between two tokens. -/
structure Lexing where
  text : Marked
  /-- The tokens so far, the last one first. -/
  reversed : List Token
  count : Nat
  indent : Int
  indents : List Indent
  /-- The candidate of the innermost flow collection, or of the block context. -/
  candidate : Option KeyCandidate
  /-- The candidates of the flow collections around it. -/
  outerCandidates : List (Option KeyCandidate)
  /-- Whether a key may start here. -/
  keyAllowed : Bool
  /-- Whether only blanks come before on this line. -/
  atLineStart : Bool
  /-- Where a value may follow its `:` without a blank: behind a quoted key or a
  flow collection. -/
  adjacentValueAt : Option Nat
  /-- Whether braces or a `?` have opened a mapping in a flow collection since the
  last mapping of a single pair ended. -/
  mappingOpened : Bool
  /-- Whether the last `:` has opened the mapping of a single pair. -/
  pairOpen : Bool

/-- A step from one token to the next. -/
abbrev Lex (Value : Type) := StateT Lexing (Except Fault) Value

namespace Lex

/-- The place reached. -/
def here : Lex Mark := do
  return (← get).text.here

/-- The next character. -/
def peek : Lex (Option Char) := do
  return (← get).text.ahead? 0

/-- Whether what is ahead passes a test. -/
def looksAt (test : Marked → Bool) : Lex Bool := do
  return test (← get).text

/-- Whether a flow collection is open. -/
def inFlow : Lex Bool := do
  return !(← get).outerCandidates.isEmpty

/-- Fails at a place. -/
def failAt {Value : Type} (mark : Mark) (problem : Problem) : Lex Value :=
  throw { problem, mark }

/-- Fails at the place reached. -/
def fail {Value : Type} (problem : Problem) : Lex Value := do
  failAt (← here) problem

/-- As many steps as there can be in a loop that takes a cell each time. -/
def fuel : Lex Nat := do
  return (← get).text.cells.length + 1

/-! ## Taking characters -/

/-- Takes some cells. -/
def drop (count : Nat) : Lex Unit :=
  modify fun state =>
    { state with text := { state.text with cells := state.text.cells.drop count } }

/-- Takes a space or a tab. -/
def skipGap : Lex Unit :=
  drop 1

/-- Takes some characters that are not blank. -/
def skip (count : Nat) : Lex Unit := do
  drop count
  modify fun state => { state with atLineStart := false }

/-- Takes a break. -/
def skipBreak : Lex Unit := do
  drop 1
  modify fun state => { state with atLineStart := true }

/-- Takes the characters in front that pass a test and are not blank. -/
def takeWhile (test : Char → Bool) : Lex (List Char) := do
  let taken := (← get).text.cells.takeWhile fun cell => test cell.char
  if !taken.isEmpty then skip taken.length
  return taken.map (·.char)

/-- Takes all spaces and tabs in front. -/
def skipGaps : Lex Unit := do
  drop ((← get).text.cells.takeWhile fun cell => cell.char = ' ' || cell.char = '\t').length

/-- Takes what is left of a line. -/
def skipLine : Lex Unit := do
  let line := (← get).text.cells.takeWhile fun cell => !cell.isBreak
  if !line.isEmpty then skip line.length

/-- What came before the end of a line that has been taken. -/
structure LineEnd where
  tab : Bool
  space : Bool

/-- Takes blanks and a comment up to the end of the line.  A comment has to be set
off. -/
def skipToLineEnd : Lex LineEnd := do
  let gap := (← get).text.cells.takeWhile fun cell => cell.char = ' ' || cell.char = '\t'
  drop gap.length
  if (← peek) = some '#' then
    if gap.isEmpty then fail .commentGap
    skipLine
  return { tab := gap.any fun cell => cell.char = '\t',
           space := gap.any fun cell => cell.char = ' ' }

/-! ## Tokens -/

/-- Appends a token. -/
def emit (kind : TokenKind) (mark : Mark) : Lex Unit :=
  modify fun state =>
    { state with
      reversed := { kind, start := mark, finish := mark } :: state.reversed
      count := state.count + 1 }

/-- Puts in a token behind the first `number` ones. -/
def insertAt (number : Nat) (kind : TokenKind) (mark : Mark) : Lex Unit :=
  modify fun state =>
    let behind := state.count - number
    { state with
      reversed := state.reversed.take behind
        ++ { kind, start := mark, finish := mark } :: state.reversed.drop behind
      count := state.count + 1 }

/-- Lets a key start here, or not. -/
def allowKey (allowed : Bool) : Lex Unit :=
  modify fun state => { state with keyAllowed := allowed }

/-! ## Candidates for keys -/

/-- Gives up the current candidate.  One that has to be a key is a fault. -/
def dropCandidate : Lex Unit := do
  if (← get).candidate.any (·.required) then fail .keyExpected
  modify fun state => { state with candidate := none }

/-- Makes the next token a candidate, if a key may start here. -/
def saveCandidate : Lex Unit := do
  let state ← get
  if state.keyAllowed then
    let mark := state.text.here
    let required := !(← inFlow) && decide (state.indent = mark.column)
      && state.indents.head?.any (·.ofBlock)
    set { state with candidate := some { number := state.count, mark, required } }

/-- Gives up a candidate that can no longer be a key, outside flow collections:
it lies on an earlier line or too far back. -/
def dropStale : Lex Unit := do
  let state ← get
  let here := state.text.here
  let stale := state.candidate.any fun candidate =>
    candidate.mark.line < here.line || candidate.mark.index + 1024 < here.index
  if stale && !(← inFlow) then
    if state.candidate.any (·.required) then fail .keyWithoutColon
    set { state with candidate := none }

/-! ## Nesting -/

/-- How many flow collections may be open at a time. -/
def greatestFlowDepth : Nat := 255

/-- Opens a flow collection. -/
def enterFlow : Lex Unit := do
  let state ← get
  if greatestFlowDepth ≤ state.outerCandidates.length then fail .depthLimit
  set { state with
    candidate := none, outerCandidates := state.candidate :: state.outerCandidates }

/-- Closes a flow collection, if one is open. -/
def leaveFlow : Lex Unit :=
  modify fun state =>
    match state.outerCandidates with
    | [] => state
    | candidate :: outerCandidates => { state with candidate, outerCandidates }

/-- The state without an innermost indentation that belongs to no block
collection, if a column reaches it. -/
def withoutContentIndent (column : Nat) (state : Lexing) : Lexing :=
  match state.indents with
  | [] => state
  | indent :: indents =>
      if !indent.ofBlock && decide (state.indent ≤ column) then
        { state with indent := indent.outer, indents }
      else state

/-- Opens a block collection at a column, if it is indented further than the one
around it.  Its token goes behind the first `number` tokens, or to the end. -/
def indentTo (column : Nat) (number : Option Nat) (kind : TokenKind) (mark : Mark) :
    Lex Unit := do
  if !(← inFlow) then
    let state := withoutContentIndent column (← get)
    set state
    if state.indent < column then
      set { state with
        indent := column
        indents := { outer := state.indent, ofBlock := true } :: state.indents }
      match number with
      | none => emit kind mark
      | some number => insertAt number kind mark

/-- Asks the content that follows to be indented by one more column. -/
def indentContent : Lex Unit := do
  let state ← get
  if !(← inFlow) && state.indents.head?.any (·.ofBlock) then
    set { state with
      indent := state.indent + 1
      indents := { outer := state.indent, ofBlock := false } :: state.indents }

/-- Leaves indentations that are deeper than a column. -/
def leaveIndents (column : Int) (mark : Mark) : List Indent → Lex Unit
  | [] => modify fun state => { state with indents := [] }
  | indent :: indents => do
      if (← get).indent ≤ column then
        modify fun state => { state with indents := indent :: indents }
      else
        if indent.ofBlock then emit .blockEnd mark
        modify fun state => { state with indent := indent.outer }
        leaveIndents column mark indents

/-- Leaves the indentations that are deeper than a column.  Inside a flow
collection, indentation says nothing. -/
def unindentTo (column : Int) : Lex Unit := do
  if !(← inFlow) then
    let state ← get
    leaveIndents column state.text.here state.indents

/-- The innermost indentation of a block collection, and those around it. -/
def blockIndents : Int → List Indent → Int × List Indent
  | indent, [] => (indent, [])
  | indent, inner :: indents =>
      if inner.ofBlock then (indent, inner :: indents) else blockIndents inner.outer indents

/-- Leaves the indentations inside the innermost block collection. -/
def leaveContentIndents : Lex Unit :=
  modify fun state =>
    let (indent, indents) := blockIndents state.indent state.indents
    { state with indent, indents }

/-! ## Blanks -/

/-- Takes blanks, comments and breaks up to the next token.  Where a block is
indented by a tab, nothing may follow on that line. -/
def skipToToken : Nat → Lex Unit
  | 0 => return
  | remaining + 1 => do
      let state ← get
      let indentsByTab := !state.indents.isEmpty && state.atLineStart
        && decide (state.text.here.column < state.indent)
      match state.text.cells with
      | [] => return
      | cell :: _ =>
          if cell.char = '\t' && indentsByTab then
            discard skipToLineEnd
            if !(← looksAt (·.isBreakOrEndAt 0)) then fail .tabIndentation
            skipToToken remaining
          else if cell.char = '\t' || cell.char = ' ' then
            skipGap
            skipToToken remaining
          else if cell.isBreak then
            skipBreak
            if !(← inFlow) then allowKey true
            skipToToken remaining
          else if cell.char = '#' then
            drop ((← get).text.cells.takeWhile fun cell => !cell.isBreak).length
            skipToToken remaining

end Lex

/-- The state before the first token. -/
def Lexing.start (text : Marked) : Lexing :=
  { text
    reversed := [{ kind := .streamStart, start := text.here, finish := text.here }]
    count := 1
    indent := -1
    indents := []
    candidate := none
    outerCandidates := []
    keyAllowed := true
    atLineStart := true
    adjacentValueAt := none
    mappingOpened := false
    pairOpen := false }

end RamlCheck.Outline
