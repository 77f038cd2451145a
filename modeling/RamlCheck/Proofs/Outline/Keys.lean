import RamlCheck.Proofs.Outline.EventPlace
import RamlCheck.Proofs.Outline.Tree

/-!
# The keys of an outline

`Outline.keys` lists the keys of an outline at any depth, those of mappings inside of
sequences too.  Each of them is the label of a scalar among the events (`mem_labels_of_build`),
and so it has a place of the text where it begins (`startsAt_of_mem_keys`).

## Strategy

No step of building makes a key of its own: a step takes the label of its event, or passes on
the keys of the open collections (`mem_keys_take`).
-/

namespace RamlCheck.Outline

open Yaml (Mark)

mutual

/-- The keys in an outline, at any depth. -/
def keys : Outline → List Label
  | .scalar _ => []
  | .sequence items => keysOfItems items
  | .mapping entries => keysOfEntries entries

/-- The keys in the items of a sequence. -/
def keysOfItems : List Outline → List Label
  | [] => []
  | item :: rest => keys item ++ keysOfItems rest

/-- The keys of some entries, and those in their values. -/
def keysOfEntries : List (Label × Outline) → List Label
  | [] => []
  | (key, node) :: rest => key :: (keys node ++ keysOfEntries rest)

end

variable {label : Label}

theorem mem_keysOfItems {items : List Outline} :
    label ∈ keysOfItems items ↔ ∃ item ∈ items, label ∈ keys item := by
  induction items with
  | nil => simp [keysOfItems]
  | cons item rest ih => simp [keysOfItems, ih]

theorem mem_keysOfEntries {entries : List (Label × Outline)} :
    label ∈ keysOfEntries entries ↔ ∃ entry ∈ entries, label = entry.1 ∨ label ∈ keys entry.2 := by
  induction entries with
  | nil => simp [keysOfEntries]
  | cons entry rest ih => simp [keysOfEntries, ih, or_assoc]

/-- Putting in an entry brings in its key and the keys in its value at most. -/
theorem mem_keysOfEntries_insertEntry {entries : List (Label × Outline)} {key : Label}
    {node : Outline} (hlabel : label ∈ keysOfEntries (insertEntry entries key node)) :
    label ∈ keysOfEntries entries ∨ label = key ∨ label ∈ keys node := by
  obtain ⟨entry, hentry, hkeys⟩ := mem_keysOfEntries.mp hlabel
  have hold : entry ∈ entries → label ∈ keysOfEntries entries := fun hmem =>
    mem_keysOfEntries.mpr ⟨entry, hmem, hkeys⟩
  unfold insertEntry at hentry
  split at hentry
  · rcases List.mem_append.mp hentry with hmem | hmem
    · exact .inl (hold hmem)
    · obtain rfl := List.mem_singleton.mp hmem
      exact .inr hkeys
  · next known other hfind =>
    rcases List.mem_append.mp hentry with hmem | hmem
    · exact .inl (hold (List.mem_of_mem_filter hmem))
    · obtain rfl := List.mem_singleton.mp hmem
      rcases hkeys with rfl | hnode
      · -- the key of old stays
        exact .inl (mem_keysOfEntries.mpr ⟨_, List.mem_of_find?_eq_some hfind, .inl rfl⟩)
      · exact .inr (.inr hnode)

/-- The keys in a collection whose end has not come. -/
def Frame.keys : Frame → List Label
  | .sequence items => keysOfItems items
  | .key entries => keysOfEntries entries
  | .value entries label => label :: keysOfEntries entries

/-- The keys in an outline under way. -/
def Building.keys : Building → List Label
  | .inside frames => frames.flatMap Frame.keys
  | .finished outline => outline.keys

theorem mem_keys_place {node : Outline} {frames : List Frame}
    (hlabel : label ∈ (place node frames).keys) :
    label ∈ node.keys ∨ label ∈ frames.flatMap Frame.keys := by
  cases frames with
  | nil => exact .inl hlabel
  | cons frame frames =>
      cases frame with
      | sequence items =>
          simp only [place, Building.keys, List.flatMap_cons, List.mem_append, Frame.keys,
            mem_keysOfItems] at hlabel ⊢
          grind
      | key entries => exact .inr hlabel
      | value entries key =>
          simp only [place, Building.keys, List.flatMap_cons, List.mem_append, Frame.keys,
            List.mem_cons] at hlabel ⊢
          rcases hlabel with hentry | hframes
          · have hcases := mem_keysOfEntries_insertEntry hentry
            tauto
          · exact .inr (.inr hframes)

/-- The label of a scalar, if an event is one. -/
def Event.labels (event : Event) : List Label :=
  match event.kind with
  | .scalar _ chars => [labelAt event.mark chars]
  | _ => []

theorem mem_keys_closeFrame {frames : List Frame} (hlabel : label ∈ (closeFrame frames).keys) :
    label ∈ frames.flatMap Frame.keys := by
  unfold closeFrame at hlabel
  split at hlabel
  · rcases mem_keys_place hlabel with hnode | hframes
    · exact List.mem_append.mpr (.inl hnode)
    · exact List.mem_append.mpr (.inr hframes)
  · rcases mem_keys_place hlabel with hnode | hframes
    · exact List.mem_append.mpr (.inl hnode)
    · exact List.mem_append.mpr (.inr hframes)
  · exact hlabel

theorem mem_keys_openFrame {event : Event} {frame : Frame} {frames : List Frame}
    {building : Building} (hframe : frame.keys = [])
    (hopen : openFrame event frame frames = .ok building) (hlabel : label ∈ building.keys) :
    label ∈ frames.flatMap Frame.keys := by
  unfold openFrame at hopen
  split at hopen
  · contradiction
  · contradiction
  · obtain rfl := Except.ok.inj hopen
    simpa [Building.keys, hframe] using hlabel

theorem mem_keys_placeScalar {event : Event} {chars : List Char} {frames : List Frame}
    {building : Building} (hplace : placeScalar event chars frames = .ok building)
    (hlabel : label ∈ building.keys) :
    label = labelAt event.mark chars ∨ label ∈ frames.flatMap Frame.keys := by
  unfold placeScalar at hplace
  simp only at hplace
  split at hplace
  · contradiction
  · obtain rfl := Except.ok.inj hplace
    exact List.mem_cons.mp hlabel
  · obtain rfl := Except.ok.inj hplace
    rcases mem_keys_place hlabel with hnode | hframes
    · exact absurd hnode List.not_mem_nil
    · exact .inr hframes

/-- Taking an event brings in its own label at most. -/
theorem mem_keys_take {event : Event} {frames : List Frame} {building : Building}
    (htake : take event frames = .ok building) (hlabel : label ∈ building.keys) :
    label ∈ event.labels ∨ label ∈ frames.flatMap Frame.keys := by
  unfold take at htake
  split at htake
  · -- only a scalar has a label to bring in
    next properties chars hkind =>
    have hlabels : event.labels = [labelAt event.mark chars] := by
      rw [Event.labels, hkind]
    rw [hlabels, List.mem_singleton]
    split at htake
    · contradiction
    · split at htake
      · contradiction
      · exact mem_keys_placeScalar htake hlabel
  · split at htake
    · contradiction
    · split at htake
      · contradiction
      · exact .inr (mem_keys_openFrame rfl htake hlabel)
  · split at htake
    · contradiction
    · split at htake
      · contradiction
      · exact .inr (mem_keys_openFrame rfl htake hlabel)
  all_goals
    -- the other events close what is open, or change nothing
    obtain rfl := Except.ok.inj htake
    first
    | exact .inr (mem_keys_closeFrame hlabel)
    | exact .inr hlabel

/-- A key of an outline is the label of one of its scalars. -/
theorem mem_labels_of_build {building : Building} {events : List Event} {outline : Outline}
    (hbuild : build building events = .ok (some outline)) (hlabel : label ∈ outline.keys) :
    label ∈ building.keys ∨ ∃ event ∈ events, label ∈ event.labels := by
  induction events generalizing building with
  | nil =>
      cases building with
      | finished finished => exact .inl (Option.some.inj (Except.ok.inj hbuild) ▸ hlabel)
      | inside frames => cases hbuild
  | cons event rest ih =>
      cases building with
      | finished finished => exact .inl (Option.some.inj (Except.ok.inj hbuild) ▸ hlabel)
      | inside frames =>
          unfold build at hbuild
          split at hbuild
          · contradiction
          · next building htake =>
            rcases ih hbuild with hkeys | ⟨other, hother, hlabels⟩
            · rcases mem_keys_take htake hkeys with hevent | hframes
              · exact .inr ⟨event, List.mem_cons_self, hevent⟩
              · exact .inl hframes
            · exact .inr ⟨other, List.mem_cons_of_mem _ hother, hlabels⟩

/-- A key of the outline of a text is put down where it begins in that text. -/
theorem startsAt_of_mem_keys {text : String} {outline : Outline}
    (hread : read text = .ok (some outline)) (hlabel : label ∈ outline.keys)
    (htext : label.text ≠ "") :
    ∃ mark, label.place = .ofMark mark ∧ StartsAt text mark label.text.toList := by
  unfold read at hread
  simp only at hread
  split at hread
  · contradiction
  · rcases mem_labels_of_build hread hlabel with hnone | ⟨event, hevent, hlabels⟩
    · exact absurd hnone List.not_mem_nil
    · have hstands := stands_of_mem_events event hevent
      unfold Event.labels at hlabels
      unfold Event.Stands at hstands
      split at hlabels
      · next properties chars hkind =>
        rw [hkind] at hstands
        obtain rfl := List.mem_singleton.mp hlabels
        refine ⟨event.mark, rfl, ?_⟩
        rw [labelAt, String.toList_ofList]
        exact hstands fun hnil => htext (by rw [labelAt, hnil])
      · exact absurd hlabels List.not_mem_nil

end RamlCheck.Outline
