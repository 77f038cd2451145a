import RamlCheck.Outline.TokenList

/-!
# From tokens to the events of an outline

The nodes of the first document, in the order in which they are met.  A node
stands where its content starts; an empty one stands where the next token does,
or in a flow mapping at the `:` in front of it.
-/

namespace RamlCheck.Outline

open Yaml (Mark Token TokenKind TagName)

/-- What stands in front of a node. -/
structure Properties where
  anchored : Bool
  tagged : Bool
  deriving DecidableEq, Repr

/-- No anchor and no tag. -/
def Properties.none : Properties :=
  { anchored := false, tagged := false }

/-- A scalar, or the start or end of something. -/
inductive EventKind
  | streamStart
  | streamEnd
  | documentStart
  | documentEnd
  | scalar (properties : Properties) (text : List Char)
  | aliased
  | sequenceStart (properties : Properties)
  | sequenceEnd
  | mappingStart (properties : Properties)
  | mappingEnd
  deriving DecidableEq, Repr

/-- An event and its place. -/
structure Event where
  kind : EventKind
  mark : Mark
  deriving DecidableEq, Repr

/-- The events of the first document of a text up to its end, or up to a fault. -/
structure EventList where
  events : List Event
  fault : Option Fault
  deriving DecidableEq, Repr

/-- What is expected next. -/
inductive Expected
  | streamStart
  | document
  | documentContent
  | documentEnd
  | blockNode
  | firstBlockEntry
  | blockEntry
  | indentlessEntry
  | firstBlockKey
  | blockKey
  | blockValue
  | firstFlowEntry
  | flowEntry
  | flowPairKey
  | flowPairValue
  | flowPairEnd
  | firstFlowKey
  | flowKey
  | flowValue
  | flowEmptyValue
  | nothing
  deriving DecidableEq, Repr

/-- What is known between two events. -/
structure Parsing where
  tokens : List Token
  fault : Option Fault
  expected : Expected
  /-- What is expected behind the open nodes, the innermost first. -/
  outer : List Expected
  anchors : List (List Char)
  /-- The handles that the last directive defines. -/
  handles : List (List Char)

/-- A step from one event to the next. -/
abbrev Parse (Value : Type) := StateT Parsing (Except Fault) Value

namespace Parse

/-- The next token, which stays.  Where the tokens break off, their fault
shows. -/
def peek : Parse Token := do
  let state ← get
  match state.tokens with
  | token :: _ => return token
  | [] =>
      match state.fault with
      | some fault => throw fault
      | none => return { kind := .streamEnd, start := .start, finish := .start }

/-- Takes the next token. -/
def skip : Parse Unit :=
  modify fun state => { state with tokens := state.tokens.drop 1 }

/-- Says what is expected next. -/
def expect (expected : Expected) : Parse Unit :=
  modify fun state => { state with expected }

/-- Remembers what is expected behind the next node. -/
def push (expected : Expected) : Parse Unit :=
  modify fun state => { state with outer := expected :: state.outer }

/-- Turns to what is expected behind the node that ends. -/
def pop : Parse Unit :=
  modify fun state =>
    match state.outer with
    | [] => { state with expected := .nothing }
    | expected :: outer => { state with expected, outer }

/-- Fails at a place. -/
def fail {Value : Type} (problem : Problem) (mark : Mark) : Parse Value :=
  throw { problem, mark }

/-- The scalar that stands for a missing node. -/
def emptyScalar (mark : Mark) : Event :=
  { kind := .scalar .none [], mark }

/-! ## Nodes -/

/-- The anchor that is next, if one is. -/
def anchorNext : Parse Bool := do
  match (← peek).kind with
  | .anchor name =>
      skip
      modify fun state => { state with anchors := name :: state.anchors }
      return true
  | _ => return false

/-- Whether a handle may be used: those with a name have to be declared. -/
def isKnownHandle (handles : List (List Char)) (handle : List Char) : Bool :=
  handle = ['!', '!'] || handles.contains handle
    || !(1 < handle.length && handle.getLast? = some '!')

/-- The tag that is next, if one is.  What is wrong with it shows at the first
property of the node. -/
def tagNext (start : Mark) : Parse Bool := do
  match (← peek).kind with
  | .tag name =>
      skip
      if isKnownHandle (← get).handles name.handle then return true
      else fail .undeclaredHandle start
  | _ => return false

/-- The properties in front of a node, in either order. -/
def properties : Parse Properties := do
  let start := (← peek).start
  if ← anchorNext then
    return { anchored := true, tagged := ← tagNext start }
  else if ← tagNext start then
    return { anchored := ← anchorNext, tagged := true }
  else return .none

/-- The content of a node behind its properties.  `block` admits block
collections, `indentless` a sequence that is not indented further than its
mapping. -/
def content (found : Properties) (block indentless : Bool) : Parse Event := do
  let token ← peek
  let start := fun (kind : EventKind) (expected : Expected) => (do
    expect expected
    return { kind, mark := token.start } : Parse Event)
  match token.kind, block, indentless with
  | .blockEntry, _, true => start (.sequenceStart found) .indentlessEntry
  | .scalar text _, _, _ =>
      pop
      skip
      return { kind := .scalar found text, mark := token.start }
  | .flowSequenceStart, _, _ => start (.sequenceStart found) .firstFlowEntry
  | .flowMappingStart, _, _ => start (.mappingStart found) .firstFlowKey
  | .blockSequenceStart, true, _ => start (.sequenceStart found) .firstBlockEntry
  | .blockMappingStart, true, _ => start (.mappingStart found) .firstBlockKey
  | _, _, _ =>
      if found = .none then fail .nodeContent token.start
      else
        pop
        return { kind := .scalar found [], mark := token.start }

/-- The event of a node. -/
def node (block indentless : Bool) : Parse Event := do
  let token ← peek
  match token.kind with
  | .aliased name =>
      pop
      skip
      if (← get).anchors.contains name then return { kind := .aliased, mark := token.start }
      else fail .unknownAnchor token.start
  | _ => content (← properties) block indentless

/-- A node behind an indicator, unless one of some tokens shows that it is missing;
then it stands at `mark`, or at that token. -/
def nodeUnless (absent : TokenKind → Bool) (block indentless : Bool) (after : Expected)
    (mark : Option Mark) : Parse Event := do
  let token ← peek
  if absent token.kind then
    expect after
    return emptyScalar (mark.getD token.start)
  else
    push after
    node block indentless

/-! ## Documents -/

/-- The directives in front of a document.  Each one takes the place of what those
before it define. -/
def directives : Nat → (seen : Bool) → Parse Unit
  | 0, _ => return
  | remaining + 1, seen => do
      let token ← peek
      match token.kind with
      | .versionDirective _ _ =>
          if seen then fail .duplicateVersion token.start
          modify fun state => { state with handles := [] }
          skip
          directives remaining true
      | .tagDirective handle _ =>
          modify fun state => { state with handles := [handle] }
          skip
          directives remaining seen
      | _ => return

/-- A token that cannot belong to the content of a document. -/
def endsContent (kind : TokenKind) : Bool :=
  match kind with
  | .versionDirective .. | .tagDirective .. | .documentStart | .documentEnd | .streamEnd => true
  | _ => false

/-- Takes indicators of the ends of documents. -/
def skipDocumentEnds : Nat → Parse Unit
  | 0 => return
  | remaining + 1 => do
      if (← peek).kind = .documentEnd then
        skip
        skipDocumentEnds remaining

/-- The start of the first document, which may be left out. -/
def documentStart : Parse Event := do
  skipDocumentEnds ((← get).tokens.length + 1)
  let token ← peek
  push .documentEnd
  if token.kind = .streamEnd then
    expect .nothing
    return { kind := .streamEnd, mark := token.start }
  else if endsContent token.kind then
    directives ((← get).tokens.length + 1) false
    let start ← peek
    if start.kind ≠ .documentStart then fail .documentStart start.start
    skip
    expect .documentContent
    return { kind := .documentStart, mark := start.start }
  else
    expect .blockNode
    return { kind := .documentStart, mark := token.start }

/-- The content of a document behind its explicit start. -/
def documentContent : Parse Event := do
  let token ← peek
  if endsContent token.kind then
    pop
    return emptyScalar token.start
  else node true false

/-- The end of a document.  A directive behind it needs an indicator in between. -/
def documentEnd : Parse Event := do
  let token ← peek
  expect .nothing
  match token.kind with
  | .versionDirective .. | .tagDirective .. => fail .directiveInside token.start
  | _ => return { kind := .documentEnd, mark := token.start }

/-! ## Block collections -/

/-- The end of a collection. -/
def close (kind : EventKind) (mark : Mark) (takes : Bool) : Parse Event := do
  pop
  if takes then skip
  return { kind, mark }

/-- An entry of a block sequence, or its end. -/
def blockEntry (first : Bool) : Parse Event := do
  if first then skip
  let token ← peek
  match token.kind with
  | .blockEntry =>
      skip
      nodeUnless (fun kind => kind = .blockEntry || kind = .blockEnd) true false .blockEntry none
  | .blockEnd => close .sequenceEnd token.start true
  | _ => fail .dashExpected token.start

/-- Whether a token shows that a key or a value of a block mapping is missing. -/
def endsBlockItem (kind : TokenKind) : Bool :=
  kind = .key || kind = .value || kind = .blockEnd

/-- An entry of a sequence that is not indented further than its mapping, or its
end. -/
def indentlessEntry : Parse Event := do
  let token ← peek
  if token.kind = .blockEntry then
    skip
    nodeUnless (fun kind => kind = .blockEntry || endsBlockItem kind) true false
      .indentlessEntry none
  else close .sequenceEnd token.start false

/-- A key of a block mapping, or the end of the mapping. -/
def blockKey (first : Bool) : Parse Event := do
  if first then skip
  let token ← peek
  match token.kind with
  | .key =>
      skip
      nodeUnless endsBlockItem true true .blockValue none
  | .value =>
      expect .blockValue
      return emptyScalar token.start
  | .blockEnd => close .mappingEnd token.start true
  | _ => fail .blockKeyExpected token.start

/-- A value of a block mapping. -/
def blockValue : Parse Event := do
  let token ← peek
  if token.kind = .value then
    skip
    nodeUnless endsBlockItem true true .blockKey none
  else
    expect .blockKey
    return emptyScalar token.start

/-! ## Flow collections -/

/-- Takes the `,` in front of an entry that is not the first one. -/
def separator (first : Bool) (problem : Problem) : Parse Unit := do
  if first then return
  let token ← peek
  if token.kind = .flowEntry then skip else fail problem token.start

/-- An entry of a flow sequence, or its end.  A key begins a mapping of a single
pair. -/
def flowEntry (first : Bool) : Parse Event := do
  if first then skip
  let token ← peek
  if token.kind = .flowSequenceEnd then close .sequenceEnd token.start true
  else
    separator first .commaOrBracket
    let token ← peek
    match token.kind with
    | .key =>
        expect .flowPairKey
        skip
        return { kind := .mappingStart .none, mark := token.start }
    | .flowSequenceEnd => close .sequenceEnd token.start true
    | _ =>
        push .flowEntry
        node false false

/-- The key of a single pair.  A token that shows that it is missing is lost. -/
def flowPairKey : Parse Event := do
  let token ← peek
  if token.kind = .value ∨ token.kind = .flowEntry ∨ token.kind = .flowSequenceEnd then
    skip
    expect .flowPairValue
    return emptyScalar token.start
  else
    push .flowPairValue
    node false false

/-- The value of a single pair. -/
def flowPairValue : Parse Event := do
  let token ← peek
  if token.kind = .value then
    skip
    nodeUnless (fun kind => kind = .flowEntry || kind = .flowSequenceEnd) false false .flowPairEnd
      none
  else
    expect .flowPairEnd
    return emptyScalar token.start

/-- The end of a single pair. -/
def flowPairEnd : Parse Event := do
  expect .flowEntry
  return { kind := .mappingEnd, mark := (← peek).start }

/-- A key of a flow mapping, or the end of the mapping. -/
def flowKey (first : Bool) : Parse Event := do
  if first then skip
  let token ← peek
  if token.kind = .flowMappingEnd then close .mappingEnd token.start true
  else
    separator first .commaOrBrace
    let token ← peek
    match token.kind with
    | .key =>
        skip
        nodeUnless (fun kind => kind = .value || kind = .flowEntry || kind = .flowMappingEnd)
          false false .flowValue none
    | .value =>
        expect .flowValue
        return emptyScalar token.start
    | .flowMappingEnd => close .mappingEnd token.start true
    | _ =>
        push .flowEmptyValue
        node false false

/-- The value of a flow mapping; an entry without a key indicator has none. -/
def flowValue (absent : Bool) : Parse Event := do
  let token ← peek
  if !absent && token.kind = .value then
    skip
    nodeUnless (fun kind => kind = .flowEntry || kind = .flowMappingEnd) false false .flowKey
      (some token.start)
  else
    expect .flowKey
    return emptyScalar token.start

/-- The next event. -/
def next : Parse Event := do
  match (← get).expected with
  | .streamStart =>
      let token ← peek
      expect .document
      skip
      return { kind := .streamStart, mark := token.start }
  | .document => documentStart
  | .documentContent => documentContent
  | .documentEnd => documentEnd
  | .blockNode => node true false
  | .firstBlockEntry => blockEntry true
  | .blockEntry => blockEntry false
  | .indentlessEntry => indentlessEntry
  | .firstBlockKey => blockKey true
  | .blockKey => blockKey false
  | .blockValue => blockValue
  | .firstFlowEntry => flowEntry true
  | .flowEntry => flowEntry false
  | .flowPairKey => flowPairKey
  | .flowPairValue => flowPairValue
  | .flowPairEnd => flowPairEnd
  | .firstFlowKey => flowKey true
  | .flowKey => flowKey false
  | .flowValue => flowValue false
  | .flowEmptyValue => flowValue true
  | .nothing => return { kind := .streamEnd, mark := (← peek).start }

end Parse

/-- All events from some state on, up to the end of the document or a fault. -/
def Parsing.run : Nat → Parsing → EventList
  | 0, _ => { events := [], fault := none }
  | remaining + 1, state =>
      match Parse.next.run state with
      | .error fault => { events := [], fault := some fault }
      | .ok (event, next) =>
          if event.kind = .documentEnd ∨ event.kind = .streamEnd then
            { events := [event], fault := none }
          else
            let rest := next.run remaining
            { rest with events := event :: rest.events }

/-- The events of a list of tokens.  Each token brings about at most four. -/
def EventList.ofTokens (tokens : TokenList) : EventList :=
  Parsing.run (4 * tokens.tokens.length + 8)
    { tokens := tokens.tokens
      fault := tokens.fault
      expected := .streamStart
      outer := []
      anchors := []
      handles := [] }

/-- The events of a text. -/
def EventList.ofText (text : String) : EventList :=
  .ofTokens (.ofText text)

end RamlCheck.Outline
