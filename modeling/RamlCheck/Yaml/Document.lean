import RamlCheck.Text.Quoted
import RamlCheck.Yaml.Event
import RamlCheck.Yaml.Scalar

/-!
# Reading a document

A text holds one document, and the events of that document make its value.  An
alias is read by going back to the events of the node it names; so the number of
such steps and the depth of nesting are limited.

## Strategy

`Items` are the events of the first document, with aliases resolved to the
positions of their nodes.  `readNode` recurses on the levels of nesting that are
still allowed, and the entries of a collection are read by a loop over a counter
that the number of items bounds.

Reading goes as far as the items go.  What is wrong with the text shows only
where they break off, so a complaint about an earlier value wins.
-/

namespace RamlCheck.Yaml

/-! ## Errors -/

/-- One step of the way to a value. -/
inductive Segment
  | index (position : Nat)
  | key (text : String)
  /-- The value of a key that is not a scalar. -/
  | unknown
  deriving DecidableEq, Repr

/-- The way to a value, from the value outwards, as a text.  The value of the
document itself is a point. -/
def pathText : List Segment → String
  | [] => "."
  | .index position :: outer => pathText outer ++ "[" ++ toString position ++ "]"
  | .key text :: outer => (if outer.isEmpty then "" else pathText outer ++ ".") ++ text
  | .unknown :: outer => (if outer.isEmpty then "" else pathText outer ++ ".") ++ "?"

/-- What is wrong with a value. -/
inductive Complaint
  | duplicateKey (key : Value)
  | notOfTag (text : String) (expected : String)
  | tooWide (value : Int)
  deriving Repr

/-- A key in the words of a complaint. -/
def keyInWords : Value → String
  | .null => "with null key"
  | .bool value => "with key `" ++ (if value then "true" else "false") ++ "`"
  | .number value => "with key " ++ value.text
  | .string text => "with key " ++ Text.quoted text
  | .sequence _ => "in YAML map"
  | .mapping _ => "in YAML map"
  | .tagged _ _ => "in YAML map"

/-- The wording of a complaint. -/
def Complaint.message : Complaint → String
  | .duplicateKey key => "duplicate entry " ++ keyInWords key
  | .notOfTag text expected =>
      "invalid value: string " ++ Text.quoted text ++ ", expected " ++ expected
  | .tooWide value =>
      "invalid type: integer `" ++ toString value ++ "` as "
        ++ (if value < 0 then "i128" else "u128") ++ ", expected any YAML value"

/-- Why a text gives no value. -/
inductive Error
  | syntaxFault (fault : Fault)
  | unknownAnchor (mark : Mark)
  | complaint (complaint : Complaint) (path : List Segment) (mark : Mark)
  | tooDeep (mark : Mark)
  | tooManyAliases
  | endOfDocument
  | severalDocuments
  deriving Repr

namespace Error

/-- The wording of an error, with its place. -/
def message : Error → String
  | .syntaxFault fault => fault.message
  | .unknownAnchor mark => "unknown anchor" ++ mark.suffix
  | .complaint what path mark =>
      let way := pathText path
      (if way = "." then "" else way ++ ": ") ++ what.message ++ mark.suffix
  | .tooDeep mark => "recursion limit exceeded" ++ mark.suffix
  | .tooManyAliases => "repetition limit exceeded"
  | .endOfDocument => "EOF while parsing a value"
  | .severalDocuments =>
      "deserializing from YAML containing more than one document is not supported"

/-- The place of an error, if it has one. -/
def mark? : Error → Option Mark
  | .syntaxFault fault => some fault.mark
  | .unknownAnchor mark => some mark
  | .complaint _ _ mark => some mark
  | .tooDeep mark => some mark
  | .tooManyAliases => none
  | .endOfDocument => none
  | .severalDocuments => none

/-- The line and column of an error, counted from one. -/
def position? (error : Error) : Option (Nat × Nat) :=
  error.mark?.map fun mark => (mark.line + 1, mark.column + 1)

/-- The words behind which the place of an error stands in its message. -/
def placeWords : List Char := " at line ".toList

/-- What comes before the first words that announce a place. -/
def withoutPlace (message : List Char) : List Char :=
  match message with
  | [] => []
  | char :: rest =>
      if message.take placeWords.length = placeWords then [] else char :: withoutPlace rest

/-- The wording of an error without its place. -/
def summary (error : Error) : String :=
  String.ofList (withoutPlace error.message.toList)

end Error

/-! ## Items -/

/-- An event of a document; aliases refer to nodes by number. -/
inductive ItemKind
  | scalar (tag : Option Tag) (text : List Char) (isPlain : Bool)
  | aliased (number : Nat)
  | sequenceStart (tag : Option Tag)
  | sequenceEnd
  | mappingStart (tag : Option Tag)
  | mappingEnd
  /-- The text holds no document. -/
  | void
  deriving DecidableEq, Repr

/-- An event of a document and its place. -/
structure Item where
  kind : ItemKind
  mark : Mark
  deriving DecidableEq, Repr

/-- The items of a document, the positions of numbered nodes, and what is wrong
behind the last item. -/
structure Items where
  items : List Item
  targets : List (Nat × Nat)
  error : Option Error

/-- What is known while the items of a document are collected. -/
structure Collecting where
  /-- The items so far, the last one first. -/
  reversed : List Item
  count : Nat
  /-- The numbers of anchors by name. -/
  anchors : List (List Char × Nat)
  targets : List (Nat × Nat)

namespace Collecting

/-- Collecting before the first event. -/
def start : Collecting :=
  { reversed := [], count := 0, anchors := [], targets := [] }

/-- Appends an item. -/
def push (state : Collecting) (item : Item) : Collecting :=
  { state with reversed := item :: state.reversed, count := state.count + 1 }

/-- Remembers the next item under an anchor.  Its number is the number of names
that are known, so a name that is given anew can share the number of a later
one. -/
def register (state : Collecting) (anchor : Option (List Char)) : Collecting :=
  match anchor with
  | none => state
  | some name =>
      let number := state.anchors.length
      let anchors :=
        if (state.anchors.lookup name).isSome then
          state.anchors.map fun known => if known.1 = name then (name, number) else known
        else state.anchors ++ [(name, number)]
      { state with
        anchors
        targets := (number, state.count) :: state.targets }

/-- What has been collected, with an error behind it. -/
def finish (state : Collecting) (error : Option Error) : Items :=
  { items := state.reversed.reverse, targets := state.targets, error }

end Collecting

/-- The items of the first document of some events, and whether more events than
the end of the text follow it. -/
def collect (fault : Option Fault) : Collecting → List Event → Items × Bool
  | state, [] => (state.finish (fault.map .syntaxFault), false)
  | state, event :: rest =>
      let mark := event.mark
      match event.kind with
      | .streamStart => collect fault state rest
      | .documentStart => collect fault state rest
      | .streamEnd => ((state.push { kind := .void, mark }).finish none, false)
      | .documentEnd =>
          (state.finish none, rest.head?.all fun event => event.kind ≠ .streamEnd)
      | .aliased name =>
          match state.anchors.lookup name with
          | some number => collect fault (state.push { kind := .aliased number, mark }) rest
          | none => (state.finish (some (.unknownAnchor mark)), true)
      | .scalar anchor tag text isPlain =>
          collect fault ((state.register anchor).push { kind := .scalar tag text isPlain, mark })
            rest
      | .sequenceStart anchor tag =>
          collect fault ((state.register anchor).push { kind := .sequenceStart tag, mark }) rest
      | .mappingStart anchor tag =>
          collect fault ((state.register anchor).push { kind := .mappingStart tag, mark }) rest
      | .sequenceEnd => collect fault (state.push { kind := .sequenceEnd, mark }) rest
      | .mappingEnd => collect fault (state.push { kind := .mappingEnd, mark }) rest

/-! ## Values -/

/-- How many collections may be open at a time. -/
def greatestDepth : Nat := 128

/-- How many times an alias may be followed for each item. -/
def aliasesPerItem : Nat := 100

/-- What is left of the items, and how many aliases have been followed. -/
structure Reading where
  rest : List Item
  jumps : Nat

/-- A step of reading. -/
abbrev ReadValue (Result : Type) := StateT Reading (Except Error) Result

/-- The item that comes next.  Where the items break off, the error behind them
shows. -/
def peekItem (document : Items) : ReadValue Item := do
  match (← get).rest with
  | item :: _ => return item
  | [] => throw (document.error.getD .endOfDocument)

/-- Takes the next item. -/
def skipItem : ReadValue Unit :=
  modify fun state => { state with rest := state.rest.drop 1 }

/-- The value of a plain scalar that has no tag. -/
def untagged (path : List Segment) (mark : Mark) (text : List Char) : Except Error Value :=
  match Scalar.resolve text with
  | .value value => .ok value
  | .tooWide value => .error (.complaint (.tooWide value) path mark)

/-- The value of a scalar with a tag that is no label.  Other tags than those of
the core of YAML make it a string, but a local tag that is no text says nothing
about a plain scalar. -/
def coreTagged (path : List Segment) (mark : Mark) (tag : Tag) (text : List Char)
    (isPlain : Bool) : Except Error Value :=
  let refuse := fun expected =>
    Except.error (.complaint (.notOfTag (String.ofList text) expected) path mark)
  if tag = .ofText "tag:yaml.org,2002:bool" then
    match Scalar.bool? text with
    | some value => .ok (.bool value)
    | none => refuse "a boolean"
  else if tag = .ofText "tag:yaml.org,2002:int" then
    match Scalar.integer? text with
    | some (.value value) => .ok value
    | some (.tooWide value) => .error (.complaint (.tooWide value) path mark)
    | none => refuse "an integer"
  else if tag = .ofText "tag:yaml.org,2002:float" then
    match Scalar.float? text with
    | some value => .ok (.number (.float value))
    | none => refuse "a float"
  else if tag = .ofText "tag:yaml.org,2002:null" then
    if Scalar.isNull text then .ok .null else refuse "null"
  else if tag.isLocal && isPlain then untagged path mark text
  else .ok (.string (String.ofList text))

/-- The value of a scalar.  `labelled` says that its local tag has been taken
care of. -/
def scalarValue (path : List Segment) (mark : Mark) (labelled : Bool) (tag : Option Tag)
    (text : List Char) (isPlain : Bool) : Except Error Value :=
  match if labelled then none else tag with
  | some tag => coreTagged path mark tag text isPlain
  | none => if isPlain then untagged path mark text else .ok (.string (String.ofList text))

/-- The items of a sequence up to its end, from some position on. -/
def readItems (document : Items) (read : List Segment → ReadValue Value)
    (path : List Segment) : Nat → Nat → List Value → ReadValue Value
  | 0, _, reversed => return .sequence reversed.reverse
  | remaining + 1, position, reversed => do
      if (← peekItem document).kind = .sequenceEnd then
        skipItem
        return .sequence reversed.reverse
      else
        let value ← read (.index position :: path)
        readItems document read path remaining (position + 1) (value :: reversed)

/-- The step of the way that leads to the value of a key. -/
def segmentOf (item : Item) : Segment :=
  match item.kind with
  | .scalar _ text _ => .key (String.ofList text)
  | _ => .unknown

/-- The entries of a mapping up to its end.  A key that is there already is a
complaint about the one that is there, made before its value is read. -/
def readEntries (document : Items) (read : List Segment → ReadValue Value)
    (path : List Segment) (mark : Mark) : Nat → List (Value × Value) → ReadValue Value
  | 0, reversed => return .mapping reversed.reverse
  | remaining + 1, reversed => do
      let item ← peekItem document
      if item.kind = .mappingEnd then
        skipItem
        return .mapping reversed.reverse
      else
        let key ← read path
        if let some known := reversed.find? fun entry => entry.1.same key then
          throw (.complaint (.duplicateKey known.1) path mark)
        let value ← read (segmentOf item :: path)
        readEntries document read path mark remaining ((key, value) :: reversed)

/-- A collection at some place, of which `inner` reads the entries; without it the
nesting is too deep. -/
def readCollection (mark : Mark) (inner : Option (ReadValue Value)) : ReadValue Value :=
  match inner with
  | none => throw (.tooDeep mark)
  | some inner => inner

/-- A node that is not an alias, of which `inner` reads the nodes inside it. -/
def readContent (document : Items) (inner : Option (List Segment → ReadValue Value))
    (labelled : Bool) (path : List Segment) (item : Item) : ReadValue Value := do
  let bound := document.items.length + 1
  match item.kind with
  | .scalar tag text isPlain =>
      skipItem
      match scalarValue path item.mark labelled tag text isPlain with
      | .ok value => return value
      | .error error => throw error
  | .sequenceStart _ =>
      skipItem
      readCollection item.mark (inner.map fun read => readItems document read path bound 0 [])
  | .mappingStart _ =>
      skipItem
      readCollection item.mark
        (inner.map fun read => readEntries document read path item.mark bound [])
  | _ =>
      skipItem
      return .null

/-- The tag of an item. -/
def tagOf (item : Item) : Option Tag :=
  match item.kind with
  | .scalar tag _ _ => tag
  | .sequenceStart tag => tag
  | .mappingStart tag => tag
  | _ => none

/-- A node that is not an alias, under its local tag if it has one. -/
def readLabelled (document : Items) (inner : Option (List Segment → ReadValue Value))
    (path : List Segment) (item : Item) : ReadValue Value := do
  match (tagOf item).bind Tag.localName? with
  | some tag => return .tagged tag (← readContent document inner true path item)
  | none => readContent document inner false path item

/-- A node.  An alias is read at the node it names, and reading then goes on
behind the alias. -/
def readWith (document : Items) (inner : Option (List Segment → ReadValue Value))
    (path : List Segment) : ReadValue Value := do
  let item ← peekItem document
  match item.kind with
  | .aliased number =>
      skipItem
      let state ← get
      if aliasesPerItem * document.items.length < state.jumps + 1 then throw .tooManyAliases
      match document.targets.lookup number with
      | none => throw .endOfDocument
      | some position =>
          set { rest := document.items.drop position, jumps := state.jumps + 1 : Reading }
          let target ← peekItem document
          let value ← readLabelled document inner path target
          modify fun after => { after with rest := state.rest }
          return value
  | _ => readLabelled document inner path item

/-- A node in which at most `depth` collections are open at a time. -/
def readNode (document : Items) : (depth : Nat) → List Segment → ReadValue Value
  | 0 => readWith document none
  | depth + 1 => readWith document (some (readNode document depth))

/-- The value of a document. -/
def Items.value (document : Items) : Except Error Value :=
  match (readNode document greatestDepth []).run { rest := document.items, jumps := 0 } with
  | .error error => .error error
  | .ok (value, _) =>
      match document.error with
      | some error => .error error
      | none => .ok value

/-- Reads a text as one YAML document. -/
def read (text : String) : Except Error Value := do
  let events := EventList.ofText text
  let (document, more) := collect events.fault .start events.events
  let value ← document.value
  if more then throw .severalDocuments
  return value

end RamlCheck.Yaml
