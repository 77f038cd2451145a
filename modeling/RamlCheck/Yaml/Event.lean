import RamlCheck.Yaml.TokenList

/-!
# From tokens to events

The nodes of a document in the order in which they are met: scalars, aliases, and
the starts and ends of collections.  A list of tokens that breaks off, or that is
no document, gives the events in front of the fault.

## Strategy

`Parsing` holds the tokens that are left and a stack of what is expected behind
the current node.  Each step gives one event and either takes a token or supplies
an empty scalar where a node is missing.
-/

namespace RamlCheck.Yaml

/-- A scalar, a start or end of something, or an alias. -/
inductive EventKind
  | streamStart
  | streamEnd
  | documentStart
  | documentEnd
  | scalar (anchor : Option (List Char)) (tag : Option Tag) (text : List Char) (isPlain : Bool)
  | aliased (name : List Char)
  | sequenceStart (anchor : Option (List Char)) (tag : Option Tag)
  | sequenceEnd
  | mappingStart (anchor : Option (List Char)) (tag : Option Tag)
  | mappingEnd
  deriving DecidableEq, Repr

/-- An event and the place where it starts. -/
structure Event where
  kind : EventKind
  mark : Mark
  deriving DecidableEq, Repr

/-- The events of a text up to its end, or up to a fault. -/
structure EventList where
  events : List Event
  fault : Option Fault
  deriving DecidableEq, Repr

/-- What is expected next. -/
inductive Expected
  | streamStart
  | implicitDocument
  | documentStart
  | documentContent
  | documentEnd
  | blockNode
  | firstBlockEntry
  | blockEntry
  | indentlessEntry
  | firstBlockKey
  | blockKey
  | blockValue
  | firstFlowEntry
  | flowEntry
  | flowPairKey
  | flowPairValue
  | flowPairEnd
  | firstFlowKey
  | flowKey
  | flowValue
  | flowEmptyValue
  | nothing
  deriving DecidableEq, Repr

/-- What is known between two events. -/
structure Parsing where
  tokens : List Token
  fault : Option Fault
  expected : Expected
  /-- What is expected behind the open nodes, the innermost first. -/
  outer : List Expected
  /-- The handles of tags that directives of this document define. -/
  handles : List (List Char × Tag)

/-- A step from one event to the next. -/
abbrev Parse (Value : Type) := StateT Parsing (Except Fault) Value

namespace Parse

/-- The next token, which stays.  Where the tokens break off, their fault
shows. -/
def peek : Parse Token := do
  let state ← get
  match state.tokens with
  | token :: _ => return token
  | [] =>
      match state.fault with
      | some fault => throw fault
      | none => return { kind := .streamEnd, start := .start, finish := .start }

/-- Takes the next token. -/
def skip : Parse Unit :=
  modify fun state => { state with tokens := state.tokens.drop 1 }

/-- Says what is expected next. -/
def expect (expected : Expected) : Parse Unit :=
  modify fun state => { state with expected }

/-- Remembers what is expected behind the next node. -/
def push (expected : Expected) : Parse Unit :=
  modify fun state => { state with outer := expected :: state.outer }

/-- Turns to what is expected behind the node that ends. -/
def pop : Parse Unit :=
  modify fun state =>
    match state.outer with
    | [] => { state with expected := .nothing }
    | expected :: outer => { state with expected, outer }

/-- Fails at a place. -/
def fail {Value : Type} (activity : Option Activity) (problem : Problem) (mark : Mark) :
    Parse Value :=
  throw (Fault.of problem mark activity)

/-- The scalar that stands for a missing node. -/
def emptyScalar (mark : Mark) : Event :=
  { kind := .scalar none none [] true, mark }

/-! ## Directives -/

/-- The directives in front of a document. -/
def directives : Nat → (seen : Bool) → Parse Unit
  | 0, _ => return
  | remaining + 1, seen => do
      let token ← peek
      match token.kind with
      | .versionDirective major minor =>
          if seen then fail none .duplicateVersion token.start
          if major ≠ 1 ∨ (minor ≠ 1 ∧ minor ≠ 2) then fail none .incompatibleVersion token.start
          skip
          directives remaining true
      | .tagDirective handle pre =>
          let handles := (← get).handles
          if handles.any fun known => known.1 = handle then
            fail none .duplicateTagHandle token.start
          modify fun state => { state with handles := handles ++ [(handle, pre)] }
          skip
          directives remaining seen
      | _ => return

/-- The directives in front of a document, of which there are at most as many as
tokens. -/
def allDirectives : Parse Unit := do
  directives ((← get).tokens.length + 1) false

/-- What a handle stands for: directives come before the two that are always
there. -/
def prefixOf? (handles : List (List Char × Tag)) (handle : List Char) : Option Tag :=
  match handles.lookup handle with
  | some pre => some pre
  | none =>
      if handle = ['!'] then some (.ofText "!")
      else if handle = ['!', '!'] then some (.ofText "tag:yaml.org,2002:")
      else none

/-! ## Nodes -/

/-- The anchor and the tag in front of a node, in either order, and the place
where they start. -/
structure Properties where
  anchor : Option (List Char)
  tag : Option TagName
  tagMark : Mark
  start : Mark

/-- The anchor that is next, if one is. -/
def anchorNext : Parse (Option (List Char)) := do
  match (← peek).kind with
  | .anchor name =>
      skip
      return some name
  | _ => return none

/-- The tag that is next, if one is, and its place. -/
def tagNext : Parse (Option TagName × Mark) := do
  let token ← peek
  match token.kind with
  | .tag name =>
      skip
      return (some name, token.start)
  | _ => return (none, token.start)

/-- The properties in front of a node. -/
def properties : Parse Properties := do
  let start := (← peek).start
  match ← anchorNext with
  | some anchor =>
      let (tag, tagMark) ← tagNext
      return { anchor := some anchor, tag, tagMark, start }
  | none =>
      match ← tagNext with
      | (some tag, tagMark) => return { anchor := ← anchorNext, tag := some tag, tagMark, start }
      | (none, tagMark) => return { anchor := none, tag := none, tagMark, start }

/-- The full name of a tag. -/
def resolveTag (found : Properties) : Parse (Option Tag) := do
  match found.tag with
  | none => return none
  | some name =>
      if name.handle.isEmpty then return some name.suffix
      match prefixOf? (← get).handles name.handle with
      | some pre => return some (pre ++ name.suffix)
      | none => fail (some .node) .undefinedTagHandle found.tagMark

/-- The event of a node.  `block` admits block collections, `indentless` a
sequence that is not indented further than its mapping.  What is wrong behind the
properties shows before an undefined handle does. -/
def node (block indentless : Bool) : Parse Event := do
  let first ← peek
  match first.kind with
  | .aliased name =>
      pop
      skip
      return { kind := .aliased name, mark := first.start }
  | _ =>
      let found ← properties
      let token ← peek
      let tag ← resolveTag found
      let collection := fun (kind : EventKind) (expected : Expected) => (do
        expect expected
        return { kind, mark := found.start } : Parse Event)
      match token.kind with
      | .blockEntry =>
          if indentless then collection (.sequenceStart found.anchor tag) .indentlessEntry
          else missing found tag token
      | .scalar text isPlain =>
          pop
          skip
          return { kind := .scalar found.anchor tag text isPlain, mark := found.start }
      | .flowSequenceStart => collection (.sequenceStart found.anchor tag) .firstFlowEntry
      | .flowMappingStart => collection (.mappingStart found.anchor tag) .firstFlowKey
      | .blockSequenceStart =>
          if block then collection (.sequenceStart found.anchor tag) .firstBlockEntry
          else missing found tag token
      | .blockMappingStart =>
          if block then collection (.mappingStart found.anchor tag) .firstBlockKey
          else missing found tag token
      | _ => missing found tag token
where
  /-- A node without content: properties make it an empty scalar. -/
  missing (found : Properties) (tag : Option Tag) (token : Token) : Parse Event := do
    if found.anchor.isSome || tag.isSome then
      pop
      return { kind := .scalar found.anchor tag [] true, mark := found.start }
    else
      fail (some (if block then .blockNode else .flowNode)) .nodeContent token.start

/-- A node behind an indicator, unless one of some tokens shows that it is
missing. -/
def nodeUnless (absent : TokenKind → Bool) (block indentless : Bool) (after : Expected)
    (mark : Mark) : Parse Event := do
  if absent (← peek).kind then
    expect after
    return emptyScalar mark
  else
    push after
    node block indentless

/-! ## Documents -/

/-- A token that cannot belong to the content of a document. -/
def endsContent (kind : TokenKind) : Bool :=
  match kind with
  | .versionDirective .. | .tagDirective .. | .documentStart | .documentEnd | .streamEnd => true
  | _ => false

/-- Takes indicators of the ends of documents. -/
def skipDocumentEnds : Nat → Parse Unit
  | 0 => return
  | remaining + 1 => do
      if (← peek).kind = .documentEnd then
        skip
        skipDocumentEnds remaining

/-- The start of a document, which only the first one may leave out. -/
def documentStart (implicit : Bool) : Parse Event := do
  if !implicit then skipDocumentEnds ((← get).tokens.length + 1)
  let token ← peek
  if implicit && (!endsContent token.kind || token.kind = .documentEnd) then
    allDirectives
    push .documentEnd
    expect .blockNode
    return { kind := .documentStart, mark := token.start }
  else if token.kind = .streamEnd then
    expect .nothing
    skip
    return { kind := .streamEnd, mark := token.start }
  else
    allDirectives
    let start ← peek
    if start.kind ≠ .documentStart then fail none .documentStart start.start
    push .documentEnd
    expect .documentContent
    skip
    return { kind := .documentStart, mark := token.start }

/-- The content of a document behind its explicit start. -/
def documentContent : Parse Event := do
  let token ← peek
  if endsContent token.kind then
    pop
    return emptyScalar token.start
  else node true false

/-- The end of a document. -/
def documentEnd : Parse Event := do
  let token ← peek
  if token.kind = .documentEnd then skip
  modify fun state => { state with handles := [] }
  expect .documentStart
  return { kind := .documentEnd, mark := token.start }

/-! ## Block collections -/

/-- The end of a collection. -/
def close (kind : EventKind) (mark : Mark) (takes : Bool) : Parse Event := do
  pop
  if takes then skip
  return { kind, mark }

/-- An entry of a block sequence, or its end. -/
def blockEntry (first : Bool) : Parse Event := do
  if first then skip
  let token ← peek
  match token.kind with
  | .blockEntry =>
      skip
      nodeUnless (fun kind => kind = .blockEntry || kind = .blockEnd) true false .blockEntry
        token.finish
  | .blockEnd => close .sequenceEnd token.start true
  | _ => fail (some .blockCollection) .dashExpected token.start

/-- An entry of a sequence that is not indented further than its mapping, or its
end. -/
def indentlessEntry : Parse Event := do
  let token ← peek
  match token.kind with
  | .blockEntry =>
      skip
      nodeUnless (fun kind => kind = .blockEntry || kind = .key || kind = .value
        || kind = .blockEnd) true false .indentlessEntry token.finish
  | _ => close .sequenceEnd token.start false

/-- Whether a token shows that a key or a value of a block mapping is missing. -/
def endsBlockItem (kind : TokenKind) : Bool :=
  kind = .key || kind = .value || kind = .blockEnd

/-- A key of a block mapping, or the end of the mapping. -/
def blockKey (first : Bool) : Parse Event := do
  if first then skip
  let token ← peek
  match token.kind with
  | .key =>
      skip
      nodeUnless endsBlockItem true true .blockValue token.finish
  | .blockEnd => close .mappingEnd token.start true
  | _ => fail (some .blockMapping) .keyExpected token.start

/-- A value of a block mapping. -/
def blockValue : Parse Event := do
  let token ← peek
  match token.kind with
  | .value =>
      skip
      nodeUnless endsBlockItem true true .blockKey token.finish
  | _ =>
      expect .blockKey
      return emptyScalar token.start

/-! ## Flow collections -/

/-- Takes the `,` in front of an entry that is not the first one. -/
def separator (first : Bool) (activity : Activity) (problem : Problem) : Parse Unit := do
  if first then return
  let token ← peek
  if token.kind = .flowEntry then skip else fail (some activity) problem token.start

/-- An entry of a flow sequence, or its end.  A key begins a mapping of a single
pair. -/
def flowEntry (first : Bool) : Parse Event := do
  if first then skip
  let token ← peek
  if token.kind = .flowSequenceEnd then close .sequenceEnd token.start true
  else
    separator first .flowSequence .commaOrBracket
    let token ← peek
    match token.kind with
    | .key =>
        expect .flowPairKey
        skip
        return { kind := .mappingStart none none, mark := token.start }
    | .flowSequenceEnd => close .sequenceEnd token.start true
    | _ =>
        push .flowEntry
        node false false

/-- The key of a single pair.  A token that shows that it is missing is lost. -/
def flowPairKey : Parse Event := do
  let token ← peek
  if token.kind = .value ∨ token.kind = .flowEntry ∨ token.kind = .flowSequenceEnd then
    skip
    expect .flowPairValue
    return emptyScalar token.finish
  else
    push .flowPairValue
    node false false

/-- The value of a single pair. -/
def flowPairValue : Parse Event := do
  let token ← peek
  if token.kind = .value then
    skip
    let next ← peek
    nodeUnless (fun kind => kind = .flowEntry || kind = .flowSequenceEnd) false false .flowPairEnd
      next.start
  else
    expect .flowPairEnd
    return emptyScalar token.start

/-- The end of a single pair. -/
def flowPairEnd : Parse Event := do
  expect .flowEntry
  return { kind := .mappingEnd, mark := (← peek).start }

/-- A key of a flow mapping, or the end of the mapping. -/
def flowKey (first : Bool) : Parse Event := do
  if first then skip
  let token ← peek
  if token.kind = .flowMappingEnd then close .mappingEnd token.start true
  else
    separator first .flowMapping .commaOrBrace
    let token ← peek
    match token.kind with
    | .key =>
        skip
        let next ← peek
        nodeUnless (fun kind => kind = .value || kind = .flowEntry || kind = .flowMappingEnd)
          false false .flowValue next.start
    | .flowMappingEnd => close .mappingEnd token.start true
    | _ =>
        push .flowEmptyValue
        node false false

/-- The value of a flow mapping; an entry without a key indicator has none. -/
def flowValue (absent : Bool) : Parse Event := do
  let token ← peek
  if !absent && token.kind = .value then
    skip
    let next ← peek
    nodeUnless (fun kind => kind = .flowEntry || kind = .flowMappingEnd) false false .flowKey
      next.start
  else
    expect .flowKey
    return emptyScalar token.start

/-- The next event. -/
def next : Parse Event := do
  match (← get).expected with
  | .streamStart =>
      let token ← peek
      expect .implicitDocument
      skip
      return { kind := .streamStart, mark := token.start }
  | .implicitDocument => documentStart true
  | .documentStart => documentStart false
  | .documentContent => documentContent
  | .documentEnd => documentEnd
  | .blockNode => node true false
  | .firstBlockEntry => blockEntry true
  | .blockEntry => blockEntry false
  | .indentlessEntry => indentlessEntry
  | .firstBlockKey => blockKey true
  | .blockKey => blockKey false
  | .blockValue => blockValue
  | .firstFlowEntry => flowEntry true
  | .flowEntry => flowEntry false
  | .flowPairKey => flowPairKey
  | .flowPairValue => flowPairValue
  | .flowPairEnd => flowPairEnd
  | .firstFlowKey => flowKey true
  | .flowKey => flowKey false
  | .flowValue => flowValue false
  | .flowEmptyValue => flowValue true
  | .nothing => return { kind := .streamEnd, mark := (← peek).start }

end Parse

/-- All events from some state on, up to the end or a fault. -/
def Parsing.run : Nat → Parsing → EventList
  | 0, _ => { events := [], fault := none }
  | remaining + 1, state =>
      match Parse.next.run state with
      | .error fault => { events := [], fault := some fault }
      | .ok (event, next) =>
          if event.kind = .streamEnd then { events := [event], fault := none }
          else
            let rest := next.run remaining
            { rest with events := event :: rest.events }

/-- The events of a list of tokens.  Each token brings about at most four. -/
def EventList.ofTokens (tokens : TokenList) : EventList :=
  Parsing.run (4 * tokens.tokens.length + 8)
    { tokens := tokens.tokens
      fault := tokens.fault
      expected := .streamStart
      outer := []
      handles := [] }

/-- The events of a text. -/
def EventList.ofText (text : String) : EventList :=
  .ofTokens (.ofText text)

end RamlCheck.Yaml
