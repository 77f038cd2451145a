import RamlCheck.Yaml.Legible
import RamlCheck.Yaml.ScalarText

/-!
# From a text to tokens

The structure of a text in block style follows from indentation, and a mapping
key is known as one only when its `:` is met.  So the walk keeps a stack of
indentations and, for each open flow collection, the token that may turn out to
be a key (`KeyCandidate`); the tokens `key` and `blockMappingStart` are put in
front of it afterwards.

## Strategy

One step takes the next token with everything that belongs to it.  The tokens
are kept in reverse, so that a token is put in close to the front of the list.

When a step fails, the tokens behind the first candidate that is still undecided
are withheld: what follows them could have put a token in front of them.
-/

namespace RamlCheck.Yaml

open Scan

/-- A token that may turn out to start a mapping key: how many tokens come before
it, its place, and whether it has to be a key because of its indentation. -/
structure KeyCandidate where
  number : Nat
  mark : Mark
  required : Bool
  deriving DecidableEq, Repr

/-- What is known between two tokens. -/
structure Lexing where
  text : Marked
  /-- The tokens so far, the last one first. -/
  reversed : List Token
  count : Nat
  /-- The columns of the open block collections, the innermost first; `-1` stands
  for none. -/
  indent : Int
  outerIndents : List Int
  /-- The candidate of the innermost flow collection, or of the block context. -/
  candidate : Option KeyCandidate
  /-- The candidates of the flow collections around it. -/
  outerCandidates : List (Option KeyCandidate)
  /-- Whether a key may start here. -/
  keyAllowed : Bool
  /-- What is wrong behind the cells that are left, if they are not the whole rest
  of the text. -/
  hidden : Option Fault

/-- A step from one token to the next. -/
abbrev Lex (Value : Type) := StateT Lexing (Except Fault) Value

namespace Lex

/-- A step over the text alone. -/
def scan {Value : Type} (step : Scan Value) : Lex Value := fun state =>
  match step.run state.text with
  | .ok (value, text) => .ok (value, { state with text })
  | .error fault => .error fault

/-- The place reached. -/
def here : Lex Mark := do
  return (← get).text.here

/-- How many flow collections are open. -/
def inFlow : Lex Bool := do
  return !(← get).outerCandidates.isEmpty

/-- Fails at the place reached. -/
def fail {Value : Type} (activity : Option Activity) (problem : Problem) : Lex Value :=
  scan (Scan.fail activity problem)

/-- Fails if fewer cells than some are left of a text whose end is hidden. -/
def need (count : Nat) : Lex Unit := do
  let state ← get
  match state.hidden with
  | none => return
  | some fault => if state.text.cells.length < count then throw fault

/-- Appends a token. -/
def emit (token : Token) : Lex Unit :=
  modify fun state =>
    { state with reversed := token :: state.reversed, count := state.count + 1 }

/-- Appends a token without extent. -/
def emitAt (kind : TokenKind) (mark : Mark) : Lex Unit :=
  emit { kind, start := mark, finish := mark }

/-- Puts in a token behind the first `number` ones. -/
def insertAt (number : Nat) (token : Token) : Lex Unit :=
  modify fun state =>
    let behind := state.count - number
    { state with
      reversed := state.reversed.take behind ++ token :: state.reversed.drop behind
      count := state.count + 1 }

/-- Lets a key start here, or not. -/
def allowKey (allowed : Bool) : Lex Unit :=
  modify fun state => { state with keyAllowed := allowed }

/-! ## Candidates for keys -/

/-- Gives up the current candidate.  One that has to be a key is a fault. -/
def dropCandidate : Lex Unit := do
  if (← get).candidate.any (·.required) then fail (some .simpleKey) .keyWithoutValue
  modify fun state => { state with candidate := none }

/-- Makes the next token a candidate, if a key may start here. -/
def saveCandidate : Lex Unit := do
  let state ← get
  if state.keyAllowed then
    let mark := state.text.here
    let required := !(← inFlow) && decide (state.indent = mark.column)
    dropCandidate
    modify fun state =>
      { state with candidate := some { number := state.count, mark, required } }

/-- How many bytes of a key may come before its `:`. -/
def longestKey : Nat := 1024

/-- Whether a candidate can no longer be a key: it lies on an earlier line or too
far back. -/
def isStale (here : Mark) (candidate : KeyCandidate) : Bool :=
  candidate.mark.line < here.line || candidate.mark.index + longestKey < here.index

/-- A candidate, unless it is stale. -/
def keepFresh (here : Mark) (candidate : Option KeyCandidate) : Option KeyCandidate :=
  candidate.filter fun candidate => !isStale here candidate

/-- Gives up all stale candidates.  One that has to be a key is a fault. -/
def dropStale : Lex Unit := do
  let state ← get
  let here := state.text.here
  let candidates := state.candidate :: state.outerCandidates
  if candidates.any fun candidate =>
      candidate.any fun candidate => isStale here candidate && candidate.required then
    fail (some .simpleKey) .keyWithoutValue
  set { state with
    candidate := keepFresh here state.candidate
    outerCandidates := state.outerCandidates.map (keepFresh here) }

/-! ## Nesting -/

/-- Opens a flow collection. -/
def enterFlow : Lex Unit :=
  modify fun state =>
    { state with
      candidate := none, outerCandidates := state.candidate :: state.outerCandidates }

/-- Closes a flow collection, if one is open. -/
def leaveFlow : Lex Unit :=
  modify fun state =>
    match state.outerCandidates with
    | [] => state
    | candidate :: outerCandidates => { state with candidate, outerCandidates }

/-- Opens a block collection at a column, if it is indented further than the one
around it.  Its token goes behind the first `number` tokens, or to the end. -/
def indentTo (column : Nat) (number : Option Nat) (kind : TokenKind) (mark : Mark) :
    Lex Unit := do
  let state ← get
  if !(← inFlow) && decide (state.indent < column) then
    set { state with indent := column, outerIndents := state.indent :: state.outerIndents }
    let token : Token := { kind, start := mark, finish := mark }
    match number with
    | none => emit token
    | some number => insertAt number token

/-- Closes block collections that are indented further than a column. -/
def closeBlocks (column : Int) (mark : Mark) : List Int → Lex Unit
  | [] => modify fun state => { state with outerIndents := [] }
  | outer :: outerIndents => do
      if (← get).indent ≤ column then
        modify fun state => { state with outerIndents := outer :: outerIndents }
      else
        emitAt .blockEnd mark
        modify fun state => { state with indent := outer }
        closeBlocks column mark outerIndents

/-- Closes the block collections that are indented further than a column.  Inside
a flow collection, indentation says nothing. -/
def unindentTo (column : Int) : Lex Unit := do
  if !(← inFlow) then
    let state ← get
    closeBlocks column state.text.here state.outerIndents

/-! ## Tokens -/

/-- Takes blanks, comments and breaks up to the next token.  A tab counts as a
blank where no key can start, and a line may start with a byte order mark. -/
def skipToToken : Nat → Lex Unit
  | 0 => return
  | remaining + 1 => do
      let state ← get
      if state.text.here.column = 0 ∧ state.text.ahead? 0 = some '\ufeff' then scan (Scan.skip 1)
      let flow ← inFlow
      let tabs := flow || !state.keyAllowed
      scan do
        discard (Scan.takeWhile fun cell => cell.char = ' ' || (tabs && cell.char = '\t'))
        Scan.skipComment
      if (← get).text.isBreakAt 0 then
        scan (Scan.skip 1)
        if !flow then allowKey true
        skipToToken remaining

/-- Takes an indicator of some length as a token. -/
def indicator (kind : TokenKind) (length : Nat) : Lex Unit := do
  let start ← here
  scan (Scan.skip length)
  emit { kind, start, finish := ← here }

/-- The end of the text.  It counts as the start of a line. -/
def endStream : Lex Unit := do
  let mark ← here
  let mark : Mark :=
    if mark.column = 0 then mark else { mark with line := mark.line + 1, column := 0 }
  modify fun state => { state with text := { state.text with finish := mark } }
  unindentTo (-1)
  dropCandidate
  allowKey false
  emitAt .streamEnd mark

/-- A directive or an indicator of documents: it ends all block collections. -/
def documentLevel (token : Lex Unit) : Lex Unit := do
  unindentTo (-1)
  dropCandidate
  allowKey false
  token

/-- The start of a flow collection. -/
def openFlow (kind : TokenKind) : Lex Unit := do
  saveCandidate
  enterFlow
  allowKey true
  indicator kind 1

/-- The end of a flow collection. -/
def closeFlow (kind : TokenKind) : Lex Unit := do
  dropCandidate
  leaveFlow
  allowKey false
  indicator kind 1

/-- The `,` of a flow collection. -/
def flowEntry : Lex Unit := do
  dropCandidate
  allowKey true
  indicator .flowEntry 1

/-- The `-` of a block sequence. -/
def blockEntry : Lex Unit := do
  if !(← inFlow) then
    if !(← get).keyAllowed then fail none .sequenceNotAllowed
    let mark ← here
    indentTo mark.column none .blockSequenceStart mark
  dropCandidate
  allowKey true
  indicator .blockEntry 1

/-- The `?` of a key. -/
def explicitKey : Lex Unit := do
  let flow ← inFlow
  if !flow then
    if !(← get).keyAllowed then fail none .keyNotAllowed
    let mark ← here
    indentTo mark.column none .blockMappingStart mark
  dropCandidate
  allowKey !flow
  indicator .key 1

/-- The `:` of a value: behind a candidate, which then is a key, or by itself. -/
def valueIndicator : Lex Unit := do
  match (← get).candidate with
  | some candidate =>
      insertAt candidate.number
        { kind := .key, start := candidate.mark, finish := candidate.mark }
      indentTo candidate.mark.column (some candidate.number) .blockMappingStart candidate.mark
      modify fun state => { state with candidate := none }
      allowKey false
  | none =>
      let flow ← inFlow
      if !flow then
        if !(← get).keyAllowed then fail none .valueNotAllowed
        let mark ← here
        indentTo mark.column none .blockMappingStart mark
      allowKey !flow
  indicator .value 1

/-- A token that may start a key. -/
def keyLike (kind : Scan TokenKind) : Lex Unit := do
  saveCandidate
  allowKey false
  let start ← here
  let kind ← scan kind
  emit { kind, start, finish := ← here }

/-- A scalar in quotes. -/
def quoted (single : Bool) : Lex Unit :=
  keyLike do
    Scan.skip 1
    return .scalar (← quotedText single (← Scan.fuel) []) false

/-- A block scalar. -/
def block (literal : Bool) : Lex Unit := do
  dropCandidate
  allowKey true
  let start ← here
  let indent := (← get).indent
  let text ← scan do
    Scan.skip 1
    scanBlock literal indent
  emit { kind := .scalar text false, start, finish := ← here }

/-- A plain scalar.  If a line has ended behind it, a key may start. -/
def plain : Lex Unit := do
  saveCandidate
  allowKey false
  let start ← here
  let flow ← inFlow
  let indent := ((← get).indent + 1).toNat
  let (text, broken) ← scan do
    plainWords flow indent (← Scan.fuel) [] Spaces.none
  if broken then allowKey true
  emit { kind := .scalar text true, start, finish := ← here }

/-- Whether a plain scalar may start with a character. -/
def startsPlain (text : Marked) (flow : Bool) (char : Char) : Bool :=
  !(['-', '?', ':', ',', '[', ']', '\x7b', '\x7d', '#', '&', '*', '!', '|', '>', '\'', '"',
      '%', '@', '`', '\t'].contains char)
    || (char = '-' && !text.isGapAt 1)
    || (!flow && (char = '?' || char = ':') && !text.isBlankOrEndAt 1)

/-- The token that starts with some character. -/
def tokenAt (text : Marked) (flow : Bool) (char : Char) : Lex Unit := do
  let setOff := text.isBlankOrEndAt 1
  match char with
  | '[' => openFlow .flowSequenceStart
  | '\x7b' => openFlow .flowMappingStart
  | ']' => closeFlow .flowSequenceEnd
  | '\x7d' => closeFlow .flowMappingEnd
  | ',' => flowEntry
  | '*' => keyLike (do return .aliased (← scanName .aliasName))
  | '&' => keyLike (do return .anchor (← scanName .anchor))
  | '!' => keyLike (do return .tag (← scanTag flow))
  | '\'' => quoted true
  | '"' => quoted false
  | _ =>
      if char = '-' && setOff then blockEntry
      else if char = '?' && (flow || setOff) then explicitKey
      else if char = ':' && (flow || setOff) then valueIndicator
      else if char = '|' && !flow then block true
      else if char = '>' && !flow then block false
      else if startsPlain text flow char then plain
      else fail (some .nextToken) .strayCharacter

/-- How many cells are looked at before a token is taken. -/
def lookahead : Nat := 4

/-- The next token, with the tokens that its place brings about. -/
def next : Lex Unit := do
  skipToToken ((← get).text.cells.length + 1)
  need lookahead
  dropStale
  unindentTo (← here).column
  let text := (← get).text
  match text.ahead? 0 with
  | none => endStream
  | some char =>
      let atStart := text.here.column = 0
      if atStart && char = '%' then documentLevel (do emit (← scan scanDirective))
      else if text.atDocumentIndicator then
        documentLevel (indicator (if char = '-' then .documentStart else .documentEnd) 3)
      else tokenAt text (← inFlow) char
  need 1
  dropStale

end Lex

/-- The state before the first token of some cells, and what is wrong behind
them. -/
def Lexing.start (text : Marked) (hidden : Option Fault) : Lexing :=
  { text
    reversed := [{ kind := .streamStart, start := text.here, finish := text.here }]
    count := 1
    indent := -1
    outerIndents := []
    candidate := none
    outerCandidates := []
    keyAllowed := true
    hidden }

/-- How many tokens are settled: those in front of the first candidate. -/
def Lexing.settled (state : Lexing) : Nat :=
  (state.candidate :: state.outerCandidates).foldl
    (fun settled candidate => (candidate.map (min settled ·.number)).getD settled) state.count

/-- Whether the last token is the end of the text. -/
def Lexing.isFinished (state : Lexing) : Bool :=
  state.reversed.head?.any fun token => token.kind = .streamEnd

/-- The tokens in front of a fault.  A fault at the very end of what can be seen is
due to what is hidden. -/
def Lexing.breakOff (state : Lexing) (fault : Fault) : TokenList :=
  let atEnd := fault.mark.index = state.text.finish.index
  { tokens := state.reversed.reverse.take state.settled
    fault := some ((state.hidden.filter fun _ => atEnd).getD fault) }

/-- All tokens from some state on, up to the end or a fault. -/
def Lexing.run : Nat → Lexing → TokenList
  | 0, state => { tokens := state.reversed.reverse, fault := none }
  | remaining + 1, state =>
      if state.isFinished then { tokens := state.reversed.reverse, fault := none }
      else
        match Lex.next.run state with
        | .ok (_, next) => next.run remaining
        | .error fault => state.breakOff fault

/-- The tokens of a text.  Marks count bytes. -/
def TokenList.ofText (text : String) : TokenList :=
  let marked := marked isBreak11 Char.utf8Size text
  let start :=
    match illegible? text with
    | none => Lexing.start marked none
    | some found => Lexing.start (marked.upTo found.piece) (some found.fault)
  start.run (marked.cells.length + 2)

end RamlCheck.Yaml
