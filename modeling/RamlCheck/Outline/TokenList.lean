import RamlCheck.Outline.Property
import RamlCheck.Outline.ScalarText

/-!
# From a text to the tokens of its outline

One step takes the next token with everything that belongs to it.  When a step
fails, the tokens behind the first candidate that is still undecided are
withheld: what follows them could have put a token in front of them.
-/

namespace RamlCheck.Outline

open Yaml (Mark Marked Token TokenKind)

namespace Lex

/-- Ends the mapping of a single pair that the last `:` has opened, if it has opened
one. -/
def closePair (mark : Mark) : Lex Unit := do
  if (← get).pairOpen then
    modify fun state => { state with pairOpen := false, mappingOpened := false }
    emit .flowMappingEnd mark

/-- The end of the text.  It counts as the start of a line. -/
def endStream : Lex Unit := do
  let mark ← here
  let mark : Mark :=
    if mark.column = 0 then mark else { mark with line := mark.line + 1, column := 0 }
  modify fun state => { state with text := { state.text with finish := mark } }
  let state ← get
  if (state.candidate :: state.outerCandidates).any (·.any (·.required)) then
    fail .keyExpected
  unindentTo (-1)
  allowKey false
  emit .streamEnd mark

/-- What starts or ends a document closes all block collections. -/
def closeAll : Lex Unit := do
  unindentTo (-1)
  dropCandidate
  allowKey false

/-- A directive. -/
def directive : Lex Unit := do
  closeAll
  let mark ← here
  emit (← scanDirective) mark

/-- An indicator of the start of a document. -/
def documentStart : Lex Unit := do
  closeAll
  let mark ← here
  skip 3
  emit .documentStart mark

/-- An indicator of the end of a document; nothing else stands on its line. -/
def documentEnd : Lex Unit := do
  closeAll
  let mark ← here
  skip 3
  emit .documentEnd mark
  discard skipToLineEnd
  if !(← looksAt (·.isBreakOrEndAt 0)) then fail .textAfterDocument

/-- The start of a flow collection. -/
def openFlow (kind : TokenKind) : Lex Unit := do
  saveCandidate
  indentContent
  enterFlow
  allowKey true
  let mark ← here
  skip 1
  if kind = .flowMappingStart then modify fun state => { state with mappingOpened := true }
  discard skipToLineEnd
  emit kind mark

/-- The end of a flow collection, of either kind: it also ends a mapping of a single
pair.  Inside another collection, a value may follow it without a blank. -/
def closeFlow (kind : TokenKind) : Lex Unit := do
  dropCandidate
  leaveFlow
  allowKey false
  let mark ← here
  closePair mark
  skip 1
  discard skipToLineEnd
  if (← inFlow) then
    let index := (← here).index
    modify fun state => { state with adjacentValueAt := some index }
  emit kind mark

/-- The `,` of a flow collection. -/
def flowEntry : Lex Unit := do
  dropCandidate
  allowKey true
  let mark ← here
  closePair mark
  skip 1
  discard skipToLineEnd
  emit .flowEntry mark

/-- Whether the last token is an anchor or a tag at the start of a line. -/
def propertyAtLineStart? : Lex (Option Mark) := do
  match (← get).reversed with
  | token :: _ =>
      match token.kind with
      | .anchor _ | .tag _ => return if token.start.column = 0 then some token.start else none
      | _ => return none
  | [] => return none

/-- The `-` of a block sequence.  Its place is put down as the one behind its
blanks. -/
def blockEntry : Lex Unit := do
  if (← inFlow) then fail .dashInFlow
  if !(← get).keyAllowed then fail .sequenceNotAllowed
  let mark ← here
  match ← propertyAtLineStart? with
  | some property =>
      if mark.column = 0 ∧ -1 < (← get).indent then failAt property .anchorIndentation
  | none => pure ()
  skip 1
  indentTo mark.column none .blockSequenceStart mark
  let gap ← skipToLineEnd
  if gap.tab && (← looksAt fun text => text.ahead? 0 = some '-' && text.isBlankOrEndAt 1) then
    fail .dashGap
  if (← looksAt fun text => text.isBreakAt 0 || (text.ahead? 0).any Yaml.isFlowIndicator) then
    indentContent
  dropCandidate
  allowKey true
  emit .blockEntry (← here)

/-- Takes spaces, breaks and comments behind a `?`, of which there is one at
least. -/
def skipBehindKey : Nat → (found : Bool) → Lex Bool
  | 0, found => return found
  | remaining + 1, found => do
      match (← get).text.cells with
      | [] => return found
      | cell :: _ =>
          if cell.char = ' ' then
            skipGap
            skipBehindKey remaining true
          else if cell.isBreak then
            skipBreak
            if !(← inFlow) then allowKey true
            skipBehindKey remaining true
          else if cell.char = '#' then
            skipLine
            skipBehindKey remaining found
          else return found

/-- The `?` of a key. -/
def explicitKey : Lex Unit := do
  let mark ← here
  let flow ← inFlow
  if flow then modify fun state => { state with mappingOpened := true }
  else
    if !(← get).keyAllowed then fail .keyNotAllowed
    indentTo mark.column none .blockMappingStart mark
  dropCandidate
  allowKey !flow
  skip 1
  if !(← skipBehindKey (← fuel) false) then fail .gapExpected
  if (← peek) = some '\t' then fail .tabNotAllowed
  emit .key mark

/-- Takes blanks behind a `:` if a tab comes first.  Without a space among them, no
letter, digit or `-` may follow. -/
def skipBehindColon : Lex Unit := do
  if (← peek) = some '\t' then
    let gap ← skipToLineEnd
    if !gap.space && (← looksAt fun text => (text.ahead? 0).any Yaml.isNameChar) then
      fail .colonGap

/-- The `:` of a value: behind a candidate, which then is a key, or by itself.  In
a flow collection it opens the mapping of a single pair, unless a mapping has been
opened already, at whatever depth. -/
def valueIndicator : Lex Unit := do
  let state ← get
  let mark := state.text.here
  let opensPair := !state.mappingOpened && (← inFlow)
  set { state with pairOpen := opensPair }
  skip 1
  skipBehindColon
  match state.candidate with
  | some candidate =>
      insertAt candidate.number .key candidate.mark
      if opensPair then
        if candidate.mark.line < mark.line then failAt mark .colonPlacement
        insertAt candidate.number .flowMappingStart (← here)
      indentTo candidate.mark.column (some candidate.number) .blockMappingStart mark
      indentContent
      modify fun state => { state with candidate := none }
      allowKey false
  | none =>
      if opensPair then emit .flowMappingStart (← here)
      let flow ← inFlow
      if !flow then
        if !(← get).keyAllowed then failAt mark .valueNotAllowed
        indentTo mark.column none .blockMappingStart mark
      indentContent
      allowKey !flow
  emit .value mark

/-- A token that may start a key. -/
def keyLike (kind : Lex TokenKind) : Lex Unit := do
  saveCandidate
  allowKey false
  let mark ← here
  emit (← kind) mark

/-- A scalar in quotes.  A value may follow it without a blank. -/
def quoted (single : Bool) : Lex Unit := do
  saveCandidate
  allowKey false
  let mark ← here
  let text ← scanQuoted single
  skipToToken (← fuel)
  let index := (← here).index
  modify fun state => { state with adjacentValueAt := some index }
  emit (.scalar text false) mark

/-- A block scalar. -/
def block (literal : Bool) : Lex Unit := do
  saveCandidate
  allowKey true
  let (text, mark) ← scanBlock literal
  emit (.scalar text false) mark

/-- The token that starts with some character. -/
def tokenAt (char : Char) : Lex Unit := do
  let state ← get
  let flow ← inFlow
  let setOff := state.text.isBlankOrEndAt 1
  let adjacent := flow && ((state.text.ahead? 1).any Yaml.isFlowIndicator
    || state.adjacentValueAt = some state.text.here.index)
  match char with
  | '[' => openFlow .flowSequenceStart
  | '\x7b' => openFlow .flowMappingStart
  | ']' => closeFlow .flowSequenceEnd
  | '\x7d' => closeFlow .flowMappingEnd
  | ',' => flowEntry
  | '*' => keyLike (do return .aliased (← scanName))
  | '&' => keyLike (do return .anchor (← scanName))
  | '!' => keyLike (do return .tag (← scanTag))
  | '\'' => quoted true
  | '"' => quoted false
  | _ =>
      if char = '-' && setOff then blockEntry
      else if char = '?' && setOff then explicitKey
      else if char = ':' && (setOff || adjacent) then valueIndicator
      else if char = '|' && !flow then block true
      else if char = '>' && !flow then block false
      else if char = '%' || char = '@' || char = '`' then fail (.strayCharacter char)
      else keyLike (do return .scalar (← scanPlain) true)

/-- The next token, with the tokens that its place brings about. -/
def next : Lex Unit := do
  skipToToken (← fuel)
  dropStale
  unindentTo (← here).column
  let text := (← get).text
  match text.ahead? 0 with
  | none => endStream
  | some char =>
      if text.here.column = 0 && char = '%' then directive
      else if text.atDocumentIndicator then
        if char = '-' then documentStart else documentEnd
      else
        if text.here.column < (← get).indent then fail .indentation
        tokenAt char

end Lex

/-- How many tokens are settled: those in front of the first candidate. -/
def Lexing.settled (state : Lexing) : Nat :=
  (state.candidate :: state.outerCandidates).foldl
    (fun settled candidate => (candidate.map (min settled ·.number)).getD settled) state.count

/-- Whether the last token is the end of the text. -/
def Lexing.isFinished (state : Lexing) : Bool :=
  state.reversed.head?.any fun token => token.kind = .streamEnd

/-- All tokens from some state on, up to the end or a fault. -/
def Lexing.run : Nat → Lexing → TokenList
  | 0, state => { tokens := state.reversed.reverse, fault := none }
  | remaining + 1, state =>
      if state.isFinished then { tokens := state.reversed.reverse, fault := none }
      else
        match (do Lex.next; Lex.dropStale : Lex Unit).run state with
        | .ok (_, next) => next.run remaining
        | .error fault =>
            { tokens := state.reversed.reverse.take state.settled, fault := some fault }

/-- The tokens of a text.  Marks count characters. -/
def TokenList.ofText (text : String) : TokenList :=
  let marked := Yaml.marked Yaml.isBreak12 (fun _ => 1) text
  (Lexing.start marked).run (marked.cells.length + 2)

end RamlCheck.Outline
