import RamlCheck.Outline.Basic
import RamlCheck.Proofs.Outline.Nesting

/-!
# Outlines of trees

The events of a text are those of a tree: `Node.events` lists them.  Building an outline
from them comes to the outline of that tree, or to the first thing in it that an outline
cannot hold: an anchor, a tag, or a key that is no scalar (`Node.refusal?`,
`build_events`).  At the root there must be a mapping (`read_of_events`).

Events that are no part of a node are passed over, so that they may stand anywhere.  An alias
is shown as an empty scalar; it comes only behind an anchor, which is refused
(`build_shownParts`).  So each text without a fault has a tree, unless it holds no node
(`exists_tree_of_text`).

## Strategy

Where a node may begin, a collection that takes it is open (`Takes`); building then goes
on where the node has been put in its place.  The induction is on the tree, and what an
open collection holds already is part of its statement.
-/

namespace RamlCheck.Outline

open Yaml (Mark)

/-- A tree of nodes with their places. -/
inductive Node
  | scalar (mark : Mark) (properties : Properties) (text : List Char)
  | sequence (start finish : Mark) (properties : Properties) (items : List Node)
  | mapping (start finish : Mark) (properties : Properties) (entries : List (Node × Node))

/-- The label of a scalar. -/
def labelAt (mark : Mark) (text : List Char) : Label :=
  { text := String.ofList text, place := .ofMark mark }

/-- What an outline cannot hold of a scalar. -/
def scalarRefusal? (properties : Properties) (mark : Mark) : Option Fault :=
  if properties.anchored then some { problem := .anchorUsed, mark }
  else if properties.tagged then some { problem := .tagUsed, mark }
  else none

/-- What an outline cannot hold of a collection itself. -/
def collectionRefusal? (properties : Properties) (mark : Mark) : Option Fault :=
  if properties.tagged then some { problem := .tagUsed, mark }
  else if properties.anchored then some { problem := .anchorUsed, mark }
  else none

namespace Node

mutual

/-- The events of a tree. -/
def events : Node → List Event
  | .scalar mark properties text => [{ kind := .scalar properties text, mark }]
  | .sequence start finish properties items =>
      { kind := .sequenceStart properties, mark := start } :: (eventsOfItems items ++
        [{ kind := .sequenceEnd, mark := finish }])
  | .mapping start finish properties entries =>
      { kind := .mappingStart properties, mark := start } :: (eventsOfEntries entries ++
        [{ kind := .mappingEnd, mark := finish }])

/-- The events of the items of a sequence. -/
def eventsOfItems : List Node → List Event
  | [] => []
  | item :: rest => events item ++ eventsOfItems rest

/-- The events of the entries of a mapping. -/
def eventsOfEntries : List (Node × Node) → List Event
  | [] => []
  | (key, value) :: rest => events key ++ (events value ++ eventsOfEntries rest)

end

/-- What an outline cannot hold of a key. -/
def keyRefusal? : Node → Option Fault
  | .scalar mark properties _ => scalarRefusal? properties mark
  | .sequence start _ properties _ =>
      (collectionRefusal? properties start).or (some { problem := .keyNotScalar, mark := start })
  | .mapping start _ properties _ =>
      (collectionRefusal? properties start).or (some { problem := .keyNotScalar, mark := start })

mutual

/-- The first thing in a tree that an outline cannot hold. -/
def refusal? : Node → Option Fault
  | .scalar mark properties _ => scalarRefusal? properties mark
  | .sequence start _ properties items =>
      (collectionRefusal? properties start).or (refusalOfItems? items)
  | .mapping start _ properties entries =>
      (collectionRefusal? properties start).or (refusalOfEntries? entries)

/-- The first thing in the items of a sequence that an outline cannot hold. -/
def refusalOfItems? : List Node → Option Fault
  | [] => none
  | item :: rest => (refusal? item).or (refusalOfItems? rest)

/-- The first thing in the entries of a mapping that an outline cannot hold. -/
def refusalOfEntries? : List (Node × Node) → Option Fault
  | [] => none
  | (key, value) :: rest =>
      (keyRefusal? key).or ((refusal? value).or (refusalOfEntries? rest))

end

/-- The label of a key.  A collection is refused as a key, so it needs none. -/
def label : Node → Label
  | .scalar mark _ text => labelAt mark text
  | .sequence start _ _ _ => labelAt start []
  | .mapping start _ _ _ => labelAt start []

mutual

/-- The outline of a tree. -/
def outline : Node → Outline
  | .scalar mark _ text => .scalar (labelAt mark text)
  | .sequence _ _ _ items => .sequence (outlineItems items)
  | .mapping _ _ _ entries => .mapping (outlineEntries [] entries)

/-- The outlines of the items of a sequence. -/
def outlineItems : List Node → List Outline
  | [] => []
  | item :: rest => outline item :: outlineItems rest

/-- The entries that some more entries make of those that are there already. -/
def outlineEntries (entries : List (Label × Outline)) :
    List (Node × Node) → List (Label × Outline)
  | [] => entries
  | (key, value) :: rest => outlineEntries (insertEntry entries key.label (outline value)) rest

end

end Node

/-! ## Building the outline of a tree -/

/-- Whether the innermost open collection takes a node that is not a key. -/
inductive Takes : List Frame → Prop
  | item (items : List Outline) (frames : List Frame) : Takes (.sequence items :: frames)
  | value (entries : List (Label × Outline)) (key : Label) (frames : List Frame) :
      Takes (.value entries key :: frames)

/-- Building goes on, unless something has been refused. -/
def orRefuse (refused : Option Fault) (others : Except Fault (Option Outline)) :
    Except Fault (Option Outline) :=
  match refused with
  | some fault => .error fault
  | none => others

theorem orRefuse_or (first second : Option Fault) (others : Except Fault (Option Outline)) :
    orRefuse (first.or second) others = orRefuse first (orRefuse second others) := by
  cases first <;> rfl

theorem build_scalar (mark : Mark) (properties : Properties) (text : List Char)
    {frames : List Frame} {building : Building} (rest : List Event)
    (hplace : placeScalar { kind := .scalar properties text, mark } text frames = .ok building) :
    build (.inside frames) ({ kind := .scalar properties text, mark } :: rest) =
      orRefuse (scalarRefusal? properties mark) (build building rest) := by
  rw [build, take, scalarRefusal?]
  obtain ⟨_ | _, _ | _⟩ := properties
  · simp only [Bool.false_eq_true, if_false, hplace]
    rfl
  all_goals rfl

theorem build_sequenceStart (start : Mark) (properties : Properties) (frames : List Frame)
    (rest : List Event) :
    build (.inside frames) ({ kind := .sequenceStart properties, mark := start } :: rest) =
      orRefuse (collectionRefusal? properties start)
        (match openFrame { kind := .sequenceStart properties, mark := start } (.sequence [])
            frames with
          | .error fault => .error fault
          | .ok building => build building rest) := by
  rw [build, take, collectionRefusal?]
  obtain ⟨_ | _, _ | _⟩ := properties <;> rfl

theorem build_mappingStart (start : Mark) (properties : Properties) (frames : List Frame)
    (rest : List Event) :
    build (.inside frames) ({ kind := .mappingStart properties, mark := start } :: rest) =
      orRefuse (collectionRefusal? properties start)
        (match openFrame { kind := .mappingStart properties, mark := start } (.key [])
            frames with
          | .error fault => .error fault
          | .ok building => build building rest) := by
  rw [build, take, collectionRefusal?]
  obtain ⟨_ | _, _ | _⟩ := properties <;> rfl

/-- A key is refused, or its mapping goes on to the value. -/
theorem build_key (key : Node) (entries : List (Label × Outline)) (frames : List Frame)
    (rest : List Event) :
    build (.inside (.key entries :: frames)) (key.events ++ rest) =
      orRefuse key.keyRefusal? (build (.inside (.value entries key.label :: frames)) rest) := by
  cases key with
  | scalar mark properties text =>
      exact build_scalar mark properties text rest rfl
  | sequence start finish properties items =>
      rw [Node.events, List.cons_append, build_sequenceStart, Node.keyRefusal?, orRefuse_or]
      rfl
  | mapping start finish properties items =>
      rw [Node.events, List.cons_append, build_mappingStart, Node.keyRefusal?, orRefuse_or]
      rfl

mutual

/-- The events of a tree are refused for the first thing that an outline cannot hold, or
put the outline of the tree in its place. -/
theorem build_events : ∀ (node : Node) {frames : List Frame} (rest : List Event), Takes frames →
    build (.inside frames) (node.events ++ rest) =
      orRefuse node.refusal? (build (place node.outline frames) rest)
  | .scalar mark properties text, frames, rest, htakes => by
      cases htakes with
      | item items frames => exact build_scalar mark properties text rest rfl
      | value entries key frames => exact build_scalar mark properties text rest rfl
  | .sequence start finish properties items, frames, rest, htakes => by
      -- neither a key nor the root is at this place, so the collection opens
      have hopen : ∀ event, openFrame event (.sequence []) frames =
          .ok (.inside (.sequence [] :: frames)) := by
        cases htakes <;> exact fun event => rfl
      rw [Node.events, List.cons_append, build_sequenceStart, hopen, Node.refusal?, orRefuse_or,
        List.append_assoc]
      simp only
      rw [build_eventsOfItems items [] frames]
      rfl
  | .mapping start finish properties entries, frames, rest, htakes => by
      have hopen : ∀ event, openFrame event (.key []) frames =
          .ok (.inside (.key [] :: frames)) := by
        cases htakes <;> exact fun event => rfl
      rw [Node.events, List.cons_append, build_mappingStart, hopen, Node.refusal?, orRefuse_or,
        List.append_assoc]
      simp only
      rw [build_eventsOfEntries entries [] frames]
      rfl

theorem build_eventsOfItems : ∀ (items : List Node) (done : List Outline) (frames : List Frame)
    (rest : List Event),
    build (.inside (.sequence done :: frames)) (Node.eventsOfItems items ++ rest) =
      orRefuse (Node.refusalOfItems? items)
        (build (.inside (.sequence (done ++ Node.outlineItems items) :: frames)) rest)
  | [], done, frames, rest => by
      rw [Node.eventsOfItems, Node.outlineItems, List.append_nil, List.nil_append]
      rfl
  | item :: others, done, frames, rest => by
      rw [Node.eventsOfItems, List.append_assoc, build_events item _ (.item done frames), place,
        build_eventsOfItems others, Node.outlineItems, Node.refusalOfItems?, orRefuse_or,
        List.append_assoc]
      rfl

theorem build_eventsOfEntries : ∀ (entries : List (Node × Node))
    (done : List (Label × Outline)) (frames : List Frame) (rest : List Event),
    build (.inside (.key done :: frames)) (Node.eventsOfEntries entries ++ rest) =
      orRefuse (Node.refusalOfEntries? entries)
        (build (.inside (.key (Node.outlineEntries done entries) :: frames)) rest)
  | [], done, frames, rest => by
      rw [Node.eventsOfEntries, Node.outlineEntries, List.nil_append]
      rfl
  | (key, value) :: others, done, frames, rest => by
      rw [Node.eventsOfEntries, List.append_assoc, List.append_assoc, build_key,
        build_events value _ (.value done key.label frames), place,
        build_eventsOfEntries others, Node.outlineEntries, Node.refusalOfEntries?, orRefuse_or,
        orRefuse_or]

end

/-! ## Events that are no part of a node -/

/-- Whether an event is part of a node. -/
def Event.isPart (event : Event) : Bool :=
  event.part?.isSome

/-- An event with an empty scalar for an alias. -/
def Event.shown (event : Event) : Event :=
  match event.kind with
  | .aliased => Parse.emptyScalar event.mark
  | _ => event

/-- The parts among some events, as they are shown. -/
def shownParts (events : List Event) : List Event :=
  (events.filter Event.isPart).map Event.shown

theorem shownParts_of_isPart {event : Event} (hpart : event.isPart = true) (rest : List Event) :
    shownParts (event :: rest) = event.shown :: shownParts rest := by
  rw [shownParts, List.filter_cons_of_pos hpart, List.map_cons, shownParts]

theorem shownParts_of_not_isPart {event : Event} (hpart : event.isPart = false)
    (rest : List Event) : shownParts (event :: rest) = shownParts rest := by
  rw [shownParts, List.filter_cons_of_neg (by simp [hpart]), shownParts]

theorem take_of_not_isPart {event : Event} (hpart : event.isPart = false) (frames : List Frame) :
    take event frames = .ok (.inside frames) := by
  unfold Event.isPart Event.part? at hpart
  unfold take
  split at hpart
  all_goals simp_all

/-- Anchors are refused. -/
theorem exists_error_of_isAnchored {event : Event} (hanchored : event.isAnchored = true)
    (frames : List Frame) : ∃ fault, take event frames = .error fault := by
  unfold Event.isAnchored at hanchored
  unfold take
  split at hanchored
  · next hkind => simp [hkind, hanchored, refuse]
  · next properties hkind =>
    rw [hkind]
    cases htagged : properties.tagged <;> simp [htagged, hanchored, refuse]
  · next properties hkind =>
    rw [hkind]
    cases htagged : properties.tagged <;> simp [htagged, hanchored, refuse]
  · contradiction

/-- Only what is shown counts, if aliases come behind anchors. -/
theorem build_shownParts (building : Building) {events : List Event}
    (hguarded : Guarded False events) :
    build building (shownParts events) = build building events := by
  induction events generalizing building with
  | nil => rfl
  | cons event rest ih =>
      cases building with
      | finished outline => rw [build, build]
      | inside frames =>
          cases hpart : event.isPart with
          | false =>
              -- what is no part has no anchor, and aliases stay guarded
              have hanchored : event.isAnchored = false := by
                unfold Event.isPart Event.part? at hpart
                unfold Event.isAnchored
                split at hpart <;> simp_all
              have hrest : Guarded False rest := hguarded.2.mono (by simp [hanchored])
              rw [shownParts_of_not_isPart hpart, ih _ hrest, build,
                take_of_not_isPart hpart frames]
          | true =>
              have hshown : event.shown = event := by
                unfold Event.shown
                split
                · next hkind => exact absurd (hguarded.1 hkind) id
                · rfl
              rw [shownParts_of_isPart hpart, hshown, build, build]
              cases hanchored : event.isAnchored with
              | true =>
                  -- an anchor ends the building, so that no alias behind it counts
                  obtain ⟨fault, hfault⟩ := exists_error_of_isAnchored hanchored frames
                  rw [hfault]
              | false =>
                  have hrest : Guarded False rest := hguarded.2.mono (by simp [hanchored])
                  cases take event frames with
                  | error fault => rfl
                  | ok building => exact ih building hrest

/-! ## Trees of texts -/

namespace Node

theorem eventsOfItems_eq (items : List Node) : eventsOfItems items = items.flatMap events := by
  induction items with
  | nil => rfl
  | cons item rest ih => rw [eventsOfItems, ih, List.flatMap_cons]

theorem eventsOfEntries_eq (entries : List (Node × Node)) :
    eventsOfEntries entries = Nesting.entriesOf events entries := by
  induction entries with
  | nil => rfl
  | cons entry rest ih => rw [eventsOfEntries, ih, Nesting.entriesOf_cons]

/-- A tree is put together from what its parts are shown as. -/
theorem draws : Nesting.Draws Event.part? Event.shown Node.events where
  leaf event hevent := by
    obtain ⟨kind, mark⟩ := event
    cases kind with
    | scalar properties text => exact ⟨.scalar mark properties text, rfl⟩
    | aliased => exact ⟨.scalar mark .none [], rfl⟩
    | _ => cases hevent
  sequence start finish items hstart hfinish := by
    obtain ⟨kind, mark⟩ := start
    obtain ⟨last, behind⟩ := finish
    cases kind <;> cases hstart
    cases last <;> cases hfinish
    next properties =>
    refine ⟨.sequence mark behind properties items, ?_⟩
    rw [Node.events, eventsOfItems_eq]
    rfl
  mapping start finish entries hstart hfinish := by
    obtain ⟨kind, mark⟩ := start
    obtain ⟨last, behind⟩ := finish
    cases kind <;> cases hstart
    cases last <;> cases hfinish
    next properties =>
    refine ⟨.mapping mark behind properties entries, ?_⟩
    rw [Node.events, eventsOfEntries_eq]
    rfl

end Node

/-- What is shown of a text without a fault is a tree, unless the text holds no node. -/
theorem exists_tree_of_text {text : String} (hfault : (EventList.ofText text).fault = none) :
    (EventList.ofText text).events.map Event.kind = [.streamStart, .streamEnd] ∨
      ∃ node : Node, shownParts (EventList.ofText text).events = node.events := by
  refine (isNode_events hfault).1.imp_right fun hnode => ?_
  generalize (EventList.ofText text).events = events at hnode
  have hparts : (events.filter Event.isPart).map Event.part? =
      (events.filterMap Event.part?).map some := by
    rw [List.map_filterMap_some_eq_filter_map_isSome, List.filter_map]
    rfl
  obtain ⟨node, hevents⟩ := hnode.exists_tree Node.draws hparts
  exact ⟨node, hevents.symm⟩

/-! ## Reading the outline of a tree -/

/-- What an outline cannot hold of a tree that is the whole document. -/
def Node.rootRefusal? : Node → Option Fault
  | .scalar mark properties _ =>
      (scalarRefusal? properties mark).or (some { problem := .rootNotMapping, mark })
  | .sequence start _ properties _ =>
      (collectionRefusal? properties start).or (some { problem := .rootNotMapping, mark := start })
  | .mapping start finish properties entries =>
      (Node.mapping start finish properties entries).refusal?

theorem build_root (node : Node) (rest : List Event) :
    build (.inside []) (node.events ++ rest) =
      orRefuse node.rootRefusal? (.ok (some node.outline)) := by
  cases node with
  | scalar mark properties text =>
      rw [Node.events, List.singleton_append, build, take, Node.rootRefusal?, scalarRefusal?]
      obtain ⟨_ | _, _ | _⟩ := properties <;> rfl
  | sequence start finish properties items =>
      rw [Node.events, List.cons_append, build_sequenceStart, Node.rootRefusal?, orRefuse_or]
      rfl
  | mapping start finish properties entries =>
      rw [Node.events, List.cons_append, build_mappingStart, Node.rootRefusal?, Node.refusal?,
        orRefuse_or, List.append_assoc]
      simp only [openFrame]
      rw [build_eventsOfEntries entries [] []]
      -- with its end the outline is finished, whatever follows
      cases rest <;> rfl

/-- What can be the root of an outline is a mapping. -/
theorem Node.entries?_outline {node : Node} (hroot : node.rootRefusal? = none) :
    node.outline.entries?.isSome = true := by
  cases node with
  | scalar => simp [Node.rootRefusal?] at hroot
  | sequence => simp [Node.rootRefusal?] at hroot
  | mapping => rfl

/-- A text whose events are those of a tree has the outline of that tree, unless there is
something in it that an outline cannot hold. -/
theorem read_of_events {text : String} {node : Node} {rest : List Event}
    (hfault : (EventList.ofText text).fault = none)
    (hevents : shownParts (EventList.ofText text).events = node.events ++ rest) :
    read text = orRefuse node.rootRefusal? (.ok (some node.outline)) := by
  simp only [read, hfault]
  rw [← build_shownParts _ (isNode_events hfault).2, hevents, build_root]

/-- A text with a fault is refused for it. -/
theorem read_of_fault {text : String} {fault : Fault}
    (hfault : (EventList.ofText text).fault = some fault) : read text = .error fault := by
  simp only [read, hfault]

/-- A text that holds no node has no outline. -/
theorem read_of_void {text : String} (hfault : (EventList.ofText text).fault = none)
    (hkinds : (EventList.ofText text).events.map Event.kind = [.streamStart, .streamEnd]) :
    read text = .ok none := by
  simp only [read, hfault]
  obtain ⟨first, others, hevents, hfirst, hothers⟩ := List.map_eq_cons_iff.mp hkinds
  obtain ⟨second, behind, rfl, hsecond, hnone⟩ := List.map_eq_cons_iff.mp hothers
  obtain rfl := List.map_eq_nil_iff.mp hnone
  simp [hevents, build, take, hfirst, hsecond]

end RamlCheck.Outline
