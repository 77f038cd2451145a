import RamlCheck.Proofs.Yaml.EventPlace
import RamlCheck.Proofs.Yaml.Way

/-!
# Where complaints stand behind a comment

A complaint about a value has the place of a mapping, or of a scalar that is not merely
missing.  So a text that starts with a comment is never complained about at its start
(`isPlaced_of_read`).

## Strategy

The items of a document are made of its events one by one (`arePlaced_collect`), and reading
only takes items from the front or goes back to earlier ones.  Each step of reading has its
triple, and what it says about errors is what counts.
-/

namespace RamlCheck.Yaml

open Std.Do

set_option mvcgen.warning false

/-- Whether an item can give rise to a complaint: a mapping, or a scalar that is not merely
missing. -/
def ItemKind.HasContent : ItemKind → Prop
  | .scalar tag text _ => tag.isSome = true ∨ text ≠ []
  | .mappingStart _ => True
  | _ => False

/-- Whether an item stands behind the start of its text, if it has content. -/
def Item.IsPlaced (item : Item) : Prop :=
  item.kind.HasContent → item.mark.IsBehindStart

/-- Whether an error is no complaint about a value at the start of the text. -/
def Error.IsPlaced : Error → Prop
  | .complaint _ _ mark => mark.IsBehindStart
  | _ => True

/-- Items in their places, with no misplaced complaint behind them. -/
structure Items.ArePlaced (document : Items) : Prop where
  items : ∀ item ∈ document.items, item.IsPlaced
  error : ∀ error ∈ document.error, error.IsPlaced

/-! ## Reading -/

/-- What is wrong with a scalar is wrong at its place. -/
theorem exists_complaint_of_scalarValue {path : List Segment} {mark : Mark} {labelled : Bool}
    {tag : Option Tag} {text : List Char} {isPlain : Bool} {error : Error}
    (hscalar : scalarValue path mark labelled tag text isPlain = .error error) :
    ∃ what, error = .complaint what path mark := by
  have huntagged : ∀ {text error}, untagged path mark text = .error error →
      ∃ what, error = .complaint what path mark := by
    intro text error hvalue
    unfold untagged at hvalue
    split at hvalue
    · contradiction
    · exact ⟨_, (Except.error.inj hvalue).symm⟩
  unfold scalarValue at hscalar
  split at hscalar
  · unfold coreTagged at hscalar
    simp only at hscalar
    repeat' split at hscalar
    all_goals first
      | contradiction
      | exact huntagged hscalar
      | exact ⟨_, (Except.error.inj hscalar).symm⟩
  · split at hscalar
    · exact huntagged hscalar
    · contradiction

/-- Nothing is wrong with a missing node. -/
theorem hasContent_of_scalarValue {path : List Segment} {mark : Mark} {labelled : Bool}
    {tag : Option Tag} {text : List Char} {isPlain : Bool} {error : Error}
    (hscalar : scalarValue path mark labelled tag text isPlain = .error error) :
    (ItemKind.scalar tag text isPlain).HasContent := by
  by_contra hmissing
  obtain ⟨htag, htext⟩ := not_or.mp hmissing
  obtain rfl := Option.not_isSome_iff_eq_none.mp htag
  obtain rfl := not_not.mp htext
  cases labelled <;> cases isPlain <;> contradiction

namespace Items

/-- A step of reading that takes items from the front at most and does not complain about the
start of the text. -/
abbrev Places {Result : Type} (step : ReadValue Result) : Prop :=
  ⦃fun state => ⌜∀ item ∈ state.rest, item.IsPlaced⌝⦄ step
  ⦃post⟨fun _ state => ⌜∀ item ∈ state.rest, item.IsPlaced⌝, fun error => ⌜error.IsPlaced⌝⟩⦄

variable {document : Items} {path : List Segment}

theorem spec_peekItem_placed (hdocument : document.ArePlaced) :
    ⦃fun state => ⌜∀ item ∈ state.rest, item.IsPlaced⌝⦄ peekItem document
    ⦃post⟨fun item state => ⌜(∀ item ∈ state.rest, item.IsPlaced) ∧ item.IsPlaced⌝,
      fun error => ⌜error.IsPlaced⌝⟩⦄ := by
  mvcgen [peekItem]
  · next hrest item others hcells =>
    exact ⟨hrest, hrest item (hcells ▸ List.mem_cons_self)⟩
  · cases herror : document.error with
    | none => trivial
    | some error => exact hdocument.error error herror

@[spec 2000]
theorem places_skipItem : Places skipItem := by
  unfold skipItem
  mvcgen
  next hrest _ => exact fun item hitem => hrest item (List.mem_of_mem_drop hitem)

theorem places_readCollection (mark : Mark) {inner : Option (ReadValue Value)}
    (hinner : ∀ result ∈ inner, Places result) : Places (readCollection mark inner) := by
  cases inner with
  | none => mvcgen [readCollection]
  | some result => exact hinner result rfl

section

variable (hdocument : document.ArePlaced)
include hdocument

theorem places_readItems {read : List Segment → ReadValue Value}
    (hread : ∀ path, Places (read path)) (remaining position : Nat) (reversed : List Value) :
    Places (readItems document read path remaining position reversed) := by
  induction remaining generalizing position reversed with
  | zero => mvcgen [readItems]
  | succ remaining ih =>
      have hpeek := spec_peekItem_placed hdocument
      mvcgen [readItems, hpeek, hread, ih]
      · next hboth => exact hboth.1
      · next hboth => exact hboth.1

/-- A key that is there already is a complaint about the place of the mapping. -/
theorem places_readEntries {read : List Segment → ReadValue Value}
    (hread : ∀ path, Places (read path)) {mark : Mark} (hmark : mark.IsBehindStart)
    (remaining : Nat) (reversed : List (Value × Value)) :
    Places (readEntries document read path mark remaining reversed) := by
  induction remaining generalizing reversed with
  | zero => mvcgen [readEntries]
  | succ remaining ih =>
      have hpeek := spec_peekItem_placed hdocument
      mvcgen [readEntries, hpeek, hread, ih]
      · next hboth => exact hboth.1
      · next hboth => exact hboth.1

theorem places_readContent {inner : Option (List Segment → ReadValue Value)}
    (hinner : ∀ read ∈ inner, ∀ path, Places (read path)) (labelled : Bool) {item : Item}
    (hitem : item.IsPlaced) : Places (readContent document inner labelled path item) := by
  have hitems : ∀ result ∈ inner.map fun read =>
      readItems document read path (document.items.length + 1) 0 [], Places result := by
    intro result hresult
    obtain ⟨read, hread, rfl⟩ := Option.map_eq_some_iff.mp hresult
    exact places_readItems hdocument (hinner read hread) _ _ _
  have hentries : item.mark.IsBehindStart → ∀ result ∈ inner.map fun read =>
      readEntries document read path item.mark (document.items.length + 1) [], Places result := by
    intro hmark result hresult
    obtain ⟨read, hread, rfl⟩ := Option.map_eq_some_iff.mp hresult
    exact places_readEntries hdocument (hinner read hread) hmark _ _
  have hsequence := places_readCollection item.mark hitems
  have hmapping := fun hmark => places_readCollection item.mark (hentries hmark)
  mvcgen [readContent, hsequence, hmapping]
  · next hkind _ _ _ _ hscalar _ _ =>
    obtain ⟨what, rfl⟩ := exists_complaint_of_scalarValue hscalar
    refine hitem ?_
    rw [hkind]
    exact hasContent_of_scalarValue hscalar
  · next hkind _ _ _ => exact fun _ _ => hitem (hkind ▸ trivial)

theorem places_readLabelled {inner : Option (List Segment → ReadValue Value)}
    (hinner : ∀ read ∈ inner, ∀ path, Places (read path)) {item : Item}
    (hitem : item.IsPlaced) : Places (readLabelled document inner path item) := by
  have hcontent := fun labelled => @places_readContent _ path hdocument _ hinner labelled _ hitem
  mvcgen [readLabelled, hcontent]

theorem places_readWith {inner : Option (List Segment → ReadValue Value)}
    (hinner : ∀ read ∈ inner, ∀ path, Places (read path)) :
    Places (readWith document inner path) := by
  have hpeek := spec_peekItem_placed hdocument
  have hlabelled := fun item hitem => @places_readLabelled _ path hdocument _ hinner item hitem
  mvcgen [readWith, hpeek, hlabelled]
  · next hboth => exact hboth.1
  · exact fun item hitem => hdocument.items item (List.mem_of_mem_drop hitem)
  · next hboth => exact hboth.2
  · next hboth => exact hboth.1
  · next hboth => exact hboth.1
  · exact fun _ _ hitem => hitem

/-- Reading does not complain about the start of the text, however deep it is nested. -/
theorem places_readNode (depth : Nat) : Places (readNode document depth path) := by
  induction depth generalizing path with
  | zero => exact places_readWith hdocument fun read hread => by simp at hread
  | succ depth ih =>
      refine places_readWith hdocument fun read hread path => ?_
      obtain rfl := Option.some.inj hread
      exact ih

theorem isPlaced_of_value {error : Error} (hvalue : document.value = .error error) :
    error.IsPlaced := by
  have hplaces := @places_readNode _ [] hdocument greatestDepth
  unfold value at hvalue
  split at hvalue
  · next other hrun =>
    rw [← Except.error.inj hvalue]
    exact Reader.error_of_triple hplaces hdocument.items hrun
  · split at hvalue
    · next other hother =>
      rw [← Except.error.inj hvalue]
      exact hdocument.error other hother
    · contradiction

end

end Items

/-! ## From the text to its items -/

theorem Collecting.arePlaced_finish {state : Collecting}
    (hitems : ∀ item ∈ state.reversed, item.IsPlaced) {last : Option Error}
    (herror : ∀ error ∈ last, error.IsPlaced) : (state.finish last).ArePlaced where
  items item hitem := hitems item (List.mem_reverse.mp hitem)
  error := herror

theorem arePlaced_collect (fault : Option Fault) {state : Collecting}
    (hitems : ∀ item ∈ state.reversed, item.IsPlaced) {events : List Event}
    (hevents : ∀ event ∈ events, event.IsPlaced) : (collect fault state events).1.ArePlaced := by
  have hpush : ∀ {state : Collecting} {item : Item}, (∀ item ∈ state.reversed, item.IsPlaced) →
      item.IsPlaced → ∀ other ∈ (state.push item).reversed, other.IsPlaced :=
    fun hitems hitem => List.forall_mem_cons.mpr ⟨hitem, hitems⟩
  induction events generalizing state with
  | nil =>
      refine Collecting.arePlaced_finish hitems fun error herror => ?_
      obtain ⟨fault, -, rfl⟩ := Option.map_eq_some_iff.mp herror
      trivial
  | cons event rest ih =>
      obtain ⟨hevent, hrest⟩ := List.forall_mem_cons.mp hevents
      have hregister : ∀ anchor, ∀ item ∈ (state.register anchor).reversed, item.IsPlaced := by
        intro anchor
        rw [state.reversed_register anchor]
        exact hitems
      -- what has no content needs no place
      have hempty : ∀ {kind : ItemKind}, ¬kind.HasContent →
          Item.IsPlaced { kind, mark := event.mark } :=
        fun hkind hcontent => absurd hcontent hkind
      rw [Event.IsPlaced] at hevent
      unfold collect
      simp only
      split
      · exact ih hitems hrest
      · exact ih hitems hrest
      · exact Collecting.arePlaced_finish (hpush hitems (hempty id)) (by simp)
      · exact Collecting.arePlaced_finish hitems (by simp)
      · split
        · exact ih (hpush hitems (hempty id)) hrest
        · refine Collecting.arePlaced_finish hitems fun error herror => ?_
          rw [← Option.some.inj herror]
          trivial
      · next hkind => exact ih (hpush (hregister _) fun hcontent => hevent (hkind ▸ hcontent)) hrest
      · exact ih (hpush (hregister _) (hempty id)) hrest
      · next hkind => exact ih (hpush (hregister _) fun hcontent => hevent (hkind ▸ hcontent)) hrest
      · exact ih (hpush hitems (hempty id)) hrest
      · exact ih (hpush hitems (hempty id)) hrest

/-- A text that starts with a comment is not complained about at its start. -/
theorem isPlaced_of_read {text : String} {rest : List Char} (htext : text.toList = '#' :: rest)
    {error : Error} (hread : read text = .error error) : error.IsPlaced := by
  let events := EventList.ofText text
  have hplaced : (collect events.fault .start events.events).1.ArePlaced :=
    arePlaced_collect _ (fun item hitem => absurd hitem List.not_mem_nil)
      (isPlaced_of_mem_events htext)
  rw [read_eq] at hread
  split at hread
  · next other hvalue =>
    rw [← Except.error.inj hread]
    exact Items.isPlaced_of_value hplaced hvalue
  · split at hread
    · rw [← Except.error.inj hread]
      trivial
    · contradiction

end RamlCheck.Yaml
