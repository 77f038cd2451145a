import RamlCheck.Proofs.Reader
import RamlCheck.Proofs.Yaml.Wording

/-!
# The way to what is wrong with a value

A complaint about a value names the keys on the way to it.  They are scalars of the text
(`hasScalar_of_read`), and the line feeds of its message are those of such scalars
(`feedsFrom_of_read`).

## Strategy

Reading never leaves the items of the document (`Items.Keeps`), so the item that names a
step of the way is one of them.  Each step of reading has its triple; the loops over
entries and the recursion on the levels of nesting are inductions over these.  The items
are made of the events of the text one by one (`areFrom_collect`).
-/

namespace RamlCheck.Yaml

open Std.Do
open Text (OneLine FeedsFrom)

set_option mvcgen.warning false

/-! ## Reading stays inside the items -/

namespace Items

/-- Whether a text is a scalar among some items. -/
def HasScalar (document : Items) (text : String) : Prop :=
  ∃ item ∈ document.items, ∃ tag isPlain, item.kind = .scalar tag text.toList isPlain

/-- Whether each key on the way to a value is a scalar among some items. -/
def Leads (document : Items) (path : List Segment) : Prop :=
  ∀ key ∈ keysOf path, document.HasScalar key

/-- Whether an error quotes only keys that are scalars among some items. -/
def Explains (document : Items) (error : Error) : Prop :=
  (∀ key ∈ error.keys, document.HasScalar key) ∧ error.IsFixed

/-- A step of reading that never leaves some items. -/
abbrev Keeps (document : Items) {Result : Type} (result : ReadValue Result) : Prop :=
  ⦃fun state => ⌜state.rest ⊆ document.items⌝⦄ result
  ⦃post⟨fun _ state => ⌜state.rest ⊆ document.items⌝, fun error => ⌜document.Explains error⌝⟩⦄

variable {document : Items} {path : List Segment}

theorem leads_nil : document.Leads [] :=
  fun _ hkey => absurd hkey List.not_mem_nil

/-- Only a complaint about a value has keys on its way. -/
theorem explains_of_keys_nil {error : Error} (hkeys : error.keys = []) (hfixed : error.IsFixed) :
    document.Explains error := by
  refine ⟨fun key hkey => ?_, hfixed⟩
  rw [hkeys] at hkey
  contradiction

theorem leads_segmentOf (hpath : document.Leads path) {item : Item}
    (hitem : item ∈ document.items) : document.Leads (segmentOf item :: path) := by
  intro key hkey
  unfold segmentOf at hkey
  split at hkey
  · next tag text isPlain hkind =>
    rcases List.mem_cons.mp hkey with rfl | hkey
    · exact ⟨item, hitem, tag, isPlain, by rw [hkind, String.toList_ofList]⟩
    · exact hpath key hkey
  · exact hpath key hkey

/-- What is wrong with a scalar is wrong on the way to it. -/
theorem explains_of_scalarValue (hpath : document.Leads path) {mark : Mark} {labelled : Bool}
    {tag : Option Tag} {text : List Char} {isPlain : Bool} {error : Error}
    (hscalar : scalarValue path mark labelled tag text isPlain = .error error) :
    document.Explains error := by
  -- there are three complaints about a scalar: of its type, of its tag, of its width
  have huntagged : ∀ {text error}, untagged path mark text = .error error →
      document.Explains error := by
    intro text error hvalue
    unfold untagged at hvalue
    split at hvalue
    · contradiction
    · rw [← Except.error.inj hvalue]
      exact ⟨hpath, trivial⟩
  have hrefused : ∀ {expected error}, OneLine expected →
      Except.error (.complaint (.notOfTag (String.ofList text) expected) path mark) =
        (.error error : Except Error Value) → document.Explains error := by
    intro expected error hexpected hvalue
    rw [← Except.error.inj hvalue]
    exact ⟨hpath, hexpected⟩
  have htooWide : ∀ {value error}, Except.error (.complaint (.tooWide value) path mark) =
      (.error error : Except Error Value) → document.Explains error := by
    intro value error hvalue
    rw [← Except.error.inj hvalue]
    exact ⟨hpath, trivial⟩
  unfold scalarValue at hscalar
  split at hscalar
  · unfold coreTagged at hscalar
    simp only at hscalar
    repeat' split at hscalar
    · contradiction
    · exact hrefused (.of_chars (by decide)) hscalar
    · contradiction
    · exact htooWide hscalar
    · exact hrefused (.of_chars (by decide)) hscalar
    · contradiction
    · exact hrefused (.of_chars (by decide)) hscalar
    · contradiction
    · exact hrefused (.of_chars (by decide)) hscalar
    · exact huntagged hscalar
    · contradiction
  · split at hscalar
    · exact huntagged hscalar
    · contradiction

theorem spec_peekItem (hdocument : ∀ error ∈ document.error, document.Explains error) :
    ⦃fun state => ⌜state.rest ⊆ document.items⌝⦄ peekItem document
    ⦃post⟨fun item state => ⌜state.rest ⊆ document.items ∧ item ∈ document.items⌝,
      fun error => ⌜document.Explains error⌝⟩⦄ := by
  mvcgen [peekItem]
  · next hrest item others hcells =>
    exact ⟨hrest, hrest (hcells ▸ List.mem_cons_self)⟩
  · cases herror : document.error with
    | none => exact explains_of_keys_nil rfl trivial
    | some error => exact hdocument error herror

@[spec]
theorem keeps_skipItem : document.Keeps skipItem := by
  mvcgen [skipItem]
  next hrest _ => exact fun item hitem => hrest (List.mem_of_mem_drop hitem)

theorem keeps_readCollection (mark : Mark) {inner : Option (ReadValue Value)}
    (hinner : ∀ result ∈ inner, document.Keeps result) :
    document.Keeps (readCollection mark inner) := by
  cases inner with
  | none =>
      mvcgen [readCollection]
      exact explains_of_keys_nil rfl trivial
  | some result => exact hinner result rfl

section

variable (hdocument : ∀ error ∈ document.error, document.Explains error)
include hdocument

theorem keeps_readItems {read : List Segment → ReadValue Value}
    (hread : ∀ path, document.Leads path → document.Keeps (read path))
    (hpath : document.Leads path) (remaining position : Nat) (reversed : List Value) :
    document.Keeps (readItems document read path remaining position reversed) := by
  induction remaining generalizing position reversed with
  | zero => mvcgen [readItems]
  | succ remaining ih =>
      have hpeek := spec_peekItem hdocument
      mvcgen [readItems, hpeek, hread, ih]
      · next hboth => exact hboth.1
      · next hboth => exact hboth.1

theorem keeps_readEntries {read : List Segment → ReadValue Value}
    (hread : ∀ path, document.Leads path → document.Keeps (read path))
    (hpath : document.Leads path) (mark : Mark) (remaining : Nat)
    (reversed : List (Value × Value)) :
    document.Keeps (readEntries document read path mark remaining reversed) := by
  induction remaining generalizing reversed with
  | zero => mvcgen [readEntries]
  | succ remaining ih =>
      have hpeek := spec_peekItem hdocument
      mvcgen [readEntries, hpeek, hread, ih]
      · next hboth => exact hboth.1
      · next hboth => exact hboth.1
      · exact leads_segmentOf hpath (And.right ‹_ ∧ _›)

theorem keeps_readContent {inner : Option (List Segment → ReadValue Value)}
    (hinner : ∀ read ∈ inner, ∀ path, document.Leads path → document.Keeps (read path))
    (labelled : Bool) (hpath : document.Leads path) (item : Item) :
    document.Keeps (readContent document inner labelled path item) := by
  have hitems : ∀ result ∈ inner.map fun read =>
      readItems document read path (document.items.length + 1) 0 [], document.Keeps result := by
    intro result hresult
    obtain ⟨read, hread, rfl⟩ := Option.map_eq_some_iff.mp hresult
    exact keeps_readItems hdocument (hinner read hread) hpath _ _ _
  have hentries : ∀ result ∈ inner.map fun read =>
      readEntries document read path item.mark (document.items.length + 1) [],
      document.Keeps result := by
    intro result hresult
    obtain ⟨read, hread, rfl⟩ := Option.map_eq_some_iff.mp hresult
    exact keeps_readEntries hdocument (hinner read hread) hpath _ _ _
  have hsequence := keeps_readCollection item.mark hitems
  have hmapping := keeps_readCollection item.mark hentries
  mvcgen [readContent, hsequence, hmapping]
  next hscalar _ _ => exact explains_of_scalarValue hpath hscalar

theorem keeps_readLabelled {inner : Option (List Segment → ReadValue Value)}
    (hinner : ∀ read ∈ inner, ∀ path, document.Leads path → document.Keeps (read path))
    (hpath : document.Leads path) (item : Item) :
    document.Keeps (readLabelled document inner path item) := by
  have hcontent := fun labelled => keeps_readContent hdocument hinner labelled hpath item
  mvcgen [readLabelled, hcontent]

theorem keeps_readWith {inner : Option (List Segment → ReadValue Value)}
    (hinner : ∀ read ∈ inner, ∀ path, document.Leads path → document.Keeps (read path))
    (hpath : document.Leads path) : document.Keeps (readWith document inner path) := by
  have hpeek := spec_peekItem hdocument
  have hlabelled := keeps_readLabelled hdocument hinner hpath
  mvcgen [readWith, hpeek, hlabelled]
  · next hboth => exact hboth.1
  · exact explains_of_keys_nil rfl trivial
  · exact explains_of_keys_nil rfl trivial
  · exact List.drop_subset _ _
  · next hboth => exact hboth.1
  · next hboth => exact hboth.1

/-- Reading never leaves the items, however deep they are nested. -/
theorem keeps_readNode (depth : Nat) (hpath : document.Leads path) :
    document.Keeps (readNode document depth path) := by
  induction depth generalizing path with
  | zero => exact keeps_readWith hdocument (fun read hread => by simp at hread) hpath
  | succ depth ih =>
      refine keeps_readWith hdocument (fun read hread path hpath => ?_) hpath
      obtain rfl := Option.some.inj hread
      exact ih hpath

theorem explains_of_value {error : Error} (hvalue : document.value = .error error) :
    document.Explains error := by
  have hkeeps := keeps_readNode hdocument greatestDepth document.leads_nil
  unfold value at hvalue
  split at hvalue
  · next other hrun =>
    rw [← Except.error.inj hvalue]
    exact Reader.error_of_triple hkeeps (List.Subset.refl _) hrun
  · split at hvalue
    · next other hother =>
      rw [← Except.error.inj hvalue]
      exact hdocument other hother
    · contradiction

end

end Items

/-! ## From the text to its items -/

/-- Whether a text is a scalar among some events. -/
def IsScalarAmong (events : List Event) (text : String) : Prop :=
  ∃ event ∈ events, ∃ anchor tag isPlain, event.kind = .scalar anchor tag text.toList isPlain

/-- Whether an item is no scalar, or one of some events. -/
def Item.IsFrom (item : Item) (events : List Event) : Prop :=
  ∀ tag text isPlain, item.kind = .scalar tag text isPlain →
    IsScalarAmong events (String.ofList text)

/-- Items that were made of some events: no other scalars are among them, and what is wrong
behind them is no complaint about a value. -/
structure Items.AreFrom (document : Items) (events : List Event) : Prop where
  items : ∀ item ∈ document.items, item.IsFrom events
  error : ∀ error ∈ document.error, error.keys = [] ∧ error.IsFixed

namespace Collecting

variable {events : List Event}

theorem areFrom_finish {state : Collecting} (hitems : ∀ item ∈ state.reversed, item.IsFrom events)
    {last : Option Error} (herror : ∀ error ∈ last, error.keys = [] ∧ error.IsFixed) :
    (state.finish last).AreFrom events where
  items item hitem := hitems item (List.mem_reverse.mp hitem)
  error := herror

theorem reversed_register (state : Collecting) (anchor : Option (List Char)) :
    (state.register anchor).reversed = state.reversed := by
  unfold register
  split <;> rfl

end Collecting

theorem areFrom_collect {all : List Event} (fault : Option Fault) {state : Collecting}
    (hitems : ∀ item ∈ state.reversed, item.IsFrom all) {events : List Event}
    (hevents : events ⊆ all) : (collect fault state events).1.AreFrom all := by
  have hpush : ∀ {state : Collecting} {item : Item}, (∀ item ∈ state.reversed, item.IsFrom all) →
      item.IsFrom all → ∀ other ∈ (state.push item).reversed, other.IsFrom all := by
    intro state item hitems hitem
    exact List.forall_mem_cons.mpr ⟨hitem, hitems⟩
  induction events generalizing state with
  | nil =>
      refine Collecting.areFrom_finish hitems ?_
      intro error herror
      obtain ⟨fault, -, rfl⟩ := Option.map_eq_some_iff.mp herror
      exact ⟨rfl, trivial⟩
  | cons event rest ih =>
      obtain ⟨hevent, hrest⟩ := List.cons_subset.mp hevents
      have hregister : ∀ anchor, ∀ item ∈ (state.register anchor).reversed, item.IsFrom all := by
        intro anchor
        rw [state.reversed_register anchor]
        exact hitems
      unfold collect
      simp only
      split
      · exact ih hitems hrest
      · exact ih hitems hrest
      · exact Collecting.areFrom_finish (hpush hitems (by simp [Item.IsFrom])) (by simp)
      · exact Collecting.areFrom_finish hitems (by simp)
      · split
        · exact ih (hpush hitems (by simp [Item.IsFrom])) hrest
        · -- an alias that is not known ends the items with a complaint
          refine Collecting.areFrom_finish hitems ?_
          intro error herror
          rw [← Option.some.inj herror]
          exact ⟨rfl, trivial⟩
      · -- only a scalar has a text, and it is that of its event
        next anchor tag text isPlain hkind =>
        refine ih (hpush (hregister _) ?_) hrest
        intro otherTag other otherPlain hother
        obtain ⟨-, rfl, -⟩ := ItemKind.scalar.inj hother
        exact ⟨event, hevent, anchor, tag, isPlain, by rw [hkind, String.toList_ofList]⟩
      · exact ih (hpush (hregister _) (by simp [Item.IsFrom])) hrest
      · exact ih (hpush (hregister _) (by simp [Item.IsFrom])) hrest
      · exact ih (hpush hitems (by simp [Item.IsFrom])) hrest
      · exact ih (hpush hitems (by simp [Item.IsFrom])) hrest

/-- Whether a text is a scalar of a YAML text. -/
def HasScalar (yaml text : String) : Prop :=
  IsScalarAmong (EventList.ofText yaml).events text

theorem read_eq (yaml : String) :
    let events := EventList.ofText yaml
    read yaml = match (collect events.fault .start events.events).1.value with
      | .error error => .error error
      | .ok value =>
          if (collect events.fault .start events.events).2 then .error .severalDocuments
          else .ok value := by
  intro events
  show (do
    let value ← (collect events.fault .start events.events).1.value
    if (collect events.fault .start events.events).2 then throw Error.severalDocuments
    return value) = _
  cases (collect events.fault .start events.events).1.value with
  | error error => rfl
  | ok value =>
      show (if _ then _ else _) = _
      split <;> rfl

/-- A text that is read is one whose items give its value. -/
theorem value_of_read {yaml : String} {value : Value} (hread : read yaml = .ok value) :
    (collect (EventList.ofText yaml).fault .start (EventList.ofText yaml).events).1.value =
      .ok value := by
  rw [read_eq] at hread
  split at hread
  · contradiction
  · next inner hinner =>
    split at hread
    · contradiction
    · rwa [← Except.ok.inj hread]

/-- The keys on the way to what is wrong with a text are scalars of the text. -/
theorem hasScalar_of_read {yaml : String} {error : Error} (hread : read yaml = .error error) :
    (∀ key ∈ error.keys, HasScalar yaml key) ∧ error.IsFixed := by
  let events := EventList.ofText yaml
  have hfrom : (collect events.fault .start events.events).1.AreFrom events.events :=
    areFrom_collect _ (fun item hitem => absurd hitem List.not_mem_nil) (List.Subset.refl _)
  rw [read_eq] at hread
  split at hread
  · next other hvalue =>
    obtain ⟨hkeys, hfixed⟩ := Items.explains_of_value
      (fun error herror => Items.explains_of_keys_nil (hfrom.error error herror).1
        (hfrom.error error herror).2) hvalue
    rw [← Except.error.inj hread]
    refine ⟨fun key hkey => ?_, hfixed⟩
    obtain ⟨item, hitem, tag, isPlain, hkind⟩ := hkeys key hkey
    have hscalar := hfrom.items item hitem tag key.toList isPlain hkind
    rwa [String.ofList_toList] at hscalar
  · split at hread
    · rw [← Except.error.inj hread]
      exact ⟨fun key hkey => absurd hkey List.not_mem_nil, trivial⟩
    · contradiction

/-- The line feeds in the message of an error are those of scalars of the text. -/
theorem feedsFrom_of_read {yaml : String} {error : Error} (hread : read yaml = .error error) :
    FeedsFrom (HasScalar yaml) error.summary := by
  obtain ⟨hkeys, hfixed⟩ := hasScalar_of_read hread
  exact (Error.feedsFrom_summary hfixed).mono hkeys

end RamlCheck.Yaml
