import RamlCheck.Outline.Event

/-!
# Outline of a document

An outline is the tree of a document with the place of each scalar.  The scalars
are texts as written, without regard to what they mean: `~` stays `~`, and quotes
leave no trace.

## Strategy

The events are folded over a stack of open collections.  A key that a mapping has
already keeps its place of old, but its entry moves to the end with the new
value.
-/

namespace RamlCheck

/-- A place in a document, counted from one. -/
structure Place where
  line : Nat
  column : Nat
  deriving DecidableEq, Repr

/-- The start of a document. -/
def Place.start : Place :=
  { line := 1, column := 1 }

/-- The place of a mark. -/
def Place.ofMark (mark : Yaml.Mark) : Place :=
  { line := mark.line + 1, column := mark.column + 1 }

/-- A scalar as written, and where it starts. -/
structure Label where
  text : String
  place : Place
  deriving DecidableEq, Repr

/-- The tree of a document. -/
inductive Outline
  | scalar (label : Label)
  | sequence (items : List Outline)
  | mapping (entries : List (Label × Outline))
  deriving Repr, Inhabited

namespace Outline

/-- The label of a scalar. -/
def label? : Outline → Option Label
  | .scalar label => some label
  | _ => none

/-- The entries of a mapping. -/
def entries? : Outline → Option (List (Label × Outline))
  | .mapping entries => some entries
  | _ => none

/-- The entries of a mapping with one more.  An entry with a key of the same text
goes to the end, with its own key and the new value. -/
def insertEntry (entries : List (Label × Outline)) (key : Label) (value : Outline) :
    List (Label × Outline) :=
  match entries.find? fun entry => entry.1.text = key.text with
  | none => entries ++ [(key, value)]
  | some (known, _) =>
      entries.filter (fun entry => entry.1.text ≠ key.text) ++ [(known, value)]

/-! ## From events -/

/-- A collection whose end has not come. -/
inductive Frame
  | sequence (items : List Outline)
  | key (entries : List (Label × Outline))
  | value (entries : List (Label × Outline)) (key : Label)

/-- An outline under way: the open collections, the innermost first, or the
finished tree. -/
inductive Building
  | inside (frames : List Frame)
  | finished (outline : Outline)

/-- Fails at the place of an event. -/
def refuse {Value : Type} (problem : Problem) (event : Event) : Except Fault Value :=
  .error { problem, mark := event.mark }

/-- Puts a finished node in its place. -/
def place (node : Outline) : List Frame → Building
  | [] => .finished node
  | .sequence items :: frames => .inside (.sequence (items ++ [node]) :: frames)
  | .key entries :: frames => .inside (.key entries :: frames)
  | .value entries key :: frames => .inside (.key (insertEntry entries key node) :: frames)

/-- Takes a scalar. -/
def placeScalar (event : Event) (text : List Char) (frames : List Frame) :
    Except Fault Building :=
  let label : Label := { text := String.ofList text, place := .ofMark event.mark }
  match frames with
  | [] => refuse .rootNotMapping event
  | .key entries :: frames => .ok (.inside (.value entries label :: frames))
  | frames => .ok (place (.scalar label) frames)

/-- Opens a collection. -/
def openFrame (event : Event) (frame : Frame) (frames : List Frame) : Except Fault Building :=
  match frames, frame with
  | [], .sequence _ => refuse .rootNotMapping event
  | .key _ :: _, _ => refuse .keyNotScalar event
  | frames, frame => .ok (.inside (frame :: frames))

/-- Closes the innermost collection. -/
def closeFrame : List Frame → Building
  | .sequence items :: frames => place (.sequence items) frames
  | .key entries :: frames => place (.mapping entries) frames
  | frames => .inside frames

/-- Takes an event inside some open collections.  Tags and anchors have no place in
an outline. -/
def take (event : Event) (frames : List Frame) : Except Fault Building :=
  match event.kind with
  | .scalar properties text =>
      if properties.anchored then refuse .anchorUsed event
      else if properties.tagged then refuse .tagUsed event
      else placeScalar event text frames
  | .sequenceStart properties =>
      if properties.tagged then refuse .tagUsed event
      else if properties.anchored then refuse .anchorUsed event
      else openFrame event (.sequence []) frames
  | .mappingStart properties =>
      if properties.tagged then refuse .tagUsed event
      else if properties.anchored then refuse .anchorUsed event
      else openFrame event (.key []) frames
  | .sequenceEnd => .ok (closeFrame frames)
  | .mappingEnd => .ok (closeFrame frames)
  | _ => .ok (.inside frames)

/-- The outline of some events, from some state on; there is none if the events
break off. -/
def build : Building → List Event → Except Fault (Option Outline)
  | .finished outline, _ => .ok (some outline)
  | .inside _, [] => .ok none
  | .inside frames, event :: rest =>
      match take event frames with
      | .error fault => .error fault
      | .ok building => build building rest

/-- The outline of a text.  What is wrong with the text as a whole wins over what
an outline cannot hold. -/
def read (text : String) : Except Fault (Option Outline) :=
  let events := EventList.ofText text
  match events.fault with
  | some fault => .error fault
  | none => build (.inside []) events.events

end Outline

end RamlCheck
