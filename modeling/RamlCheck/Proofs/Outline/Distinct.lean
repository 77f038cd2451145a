import Mathlib.Data.List.Nodup
import RamlCheck.Document.Resource

/-!
# Keys of an outline are distinct

No mapping of an outline that has been read has two keys of one text
(`distinct_of_read`).  So what is found first under some key is all that is there
(`Distinct.filter_key_eq`).

## Strategy

Distinct keys are kept by every step of building: entries come into a mapping by
`insertEntry` alone, and this takes out the entry with the same key (`Distinct.insertEntry`).
-/

namespace RamlCheck.Outline

/-- Whether no mapping in an outline, at any depth, has two keys of one text. -/
inductive Distinct : Outline → Prop
  | scalar (label : Label) : Distinct (.scalar label)
  | sequence {items : List Outline} (hitems : ∀ item ∈ items, Distinct item) :
      Distinct (.sequence items)
  | mapping {entries : List (Label × Outline)}
      (hkeys : (entries.map fun entry => entry.1.text).Nodup)
      (hvalues : ∀ entry ∈ entries, Distinct entry.2) : Distinct (.mapping entries)

variable {entries : List (Label × Outline)}

theorem distinct_mapping : Distinct (.mapping entries) ↔
    (entries.map fun entry => entry.1.text).Nodup ∧ ∀ entry ∈ entries, entry.2.Distinct := by
  constructor
  · rintro (- | - | ⟨hkeys, hvalues⟩)
    exact ⟨hkeys, hvalues⟩
  · rintro ⟨hkeys, hvalues⟩
    exact .mapping hkeys hvalues

/-- One more entry at the end keeps keys distinct if its key is new. -/
theorem Distinct.concat (hentries : Distinct (.mapping entries)) {key : Label}
    (hnew : ∀ entry ∈ entries, entry.1.text ≠ key.text) {value : Outline}
    (hvalue : value.Distinct) : Distinct (.mapping (entries ++ [(key, value)])) := by
  obtain ⟨hkeys, hvalues⟩ := distinct_mapping.mp hentries
  refine .mapping ?_ ?_
  · rw [List.map_append, List.nodup_append]
    refine ⟨hkeys, List.nodup_singleton _, ?_⟩
    intro text htext last hlast
    obtain ⟨entry, hentry, rfl⟩ := List.mem_map.mp htext
    rw [List.mem_singleton.mp hlast]
    exact hnew entry hentry
  · intro entry hentry
    rcases List.mem_append.mp hentry with hentry | hentry
    · exact hvalues entry hentry
    · rwa [List.mem_singleton.mp hentry]

theorem Distinct.filter (hentries : Distinct (.mapping entries))
    (keep : Label × Outline → Bool) : Distinct (.mapping (entries.filter keep)) := by
  obtain ⟨hkeys, hvalues⟩ := distinct_mapping.mp hentries
  exact .mapping (hkeys.sublist (List.filter_sublist.map _)) fun entry hentry =>
    hvalues entry (List.mem_of_mem_filter hentry)

/-- Putting in an entry keeps keys distinct. -/
theorem Distinct.insertEntry (hentries : Distinct (.mapping entries)) (key : Label)
    {value : Outline} (hvalue : value.Distinct) :
    Distinct (.mapping (insertEntry entries key value)) := by
  unfold Outline.insertEntry
  split
  · next hnone =>
    refine hentries.concat (fun entry hentry => ?_) hvalue
    simpa using List.find?_eq_none.mp hnone entry hentry
  · next known old hknown =>
    have htext : known.text = key.text := by simpa using List.find?_some hknown
    refine (hentries.filter _).concat (fun entry hentry => ?_) hvalue
    rw [htext]
    simpa using List.of_mem_filter hentry

/-! ## Building -/

/-- Whether the keys in a collection whose end has not come are distinct. -/
def Frame.Distinct : Frame → Prop
  | .sequence items => Outline.Distinct (.sequence items)
  | .key entries => Outline.Distinct (.mapping entries)
  | .value entries _ => Outline.Distinct (.mapping entries)

/-- Whether the keys in an outline under way are distinct. -/
def Building.Distinct : Building → Prop
  | .inside frames => ∀ frame ∈ frames, frame.Distinct
  | .finished outline => outline.Distinct

theorem distinct_place {node : Outline} (hnode : node.Distinct) {frames : List Frame}
    (hframes : ∀ frame ∈ frames, frame.Distinct) : (place node frames).Distinct := by
  cases frames with
  | nil => exact hnode
  | cons frame frames =>
      obtain ⟨hframe, hrest⟩ := List.forall_mem_cons.mp hframes
      cases frame with
      | sequence items =>
          refine List.forall_mem_cons.mpr ⟨?_, hrest⟩
          cases hframe with
          | sequence hitems =>
              refine .sequence fun item hitem => ?_
              rcases List.mem_append.mp hitem with hitem | hitem
              · exact hitems item hitem
              · rwa [List.mem_singleton.mp hitem]
      | key entries => exact hframes
      | value entries key =>
          exact List.forall_mem_cons.mpr ⟨hframe.insertEntry key hnode, hrest⟩

theorem distinct_closeFrame {frames : List Frame} (hframes : ∀ frame ∈ frames, frame.Distinct) :
    (closeFrame frames).Distinct := by
  unfold closeFrame
  split
  · obtain ⟨hframe, hrest⟩ := List.forall_mem_cons.mp hframes
    exact distinct_place hframe hrest
  · obtain ⟨hframe, hrest⟩ := List.forall_mem_cons.mp hframes
    exact distinct_place hframe hrest
  · exact hframes

theorem distinct_openFrame {event : Event} {frame : Frame} (hframe : frame.Distinct)
    {frames : List Frame} (hframes : ∀ frame ∈ frames, frame.Distinct) {building : Building}
    (hopen : openFrame event frame frames = .ok building) : building.Distinct := by
  unfold openFrame at hopen
  split at hopen
  · contradiction
  · contradiction
  · obtain rfl := Except.ok.inj hopen
    exact List.forall_mem_cons.mpr ⟨hframe, hframes⟩

theorem distinct_placeScalar {event : Event} {text : List Char} {frames : List Frame}
    (hframes : ∀ frame ∈ frames, frame.Distinct) {building : Building}
    (hplace : placeScalar event text frames = .ok building) : building.Distinct := by
  unfold placeScalar at hplace
  simp only at hplace
  split at hplace
  · contradiction
  · obtain rfl := Except.ok.inj hplace
    obtain ⟨hframe, hrest⟩ := List.forall_mem_cons.mp hframes
    exact List.forall_mem_cons.mpr ⟨hframe, hrest⟩
  · obtain rfl := Except.ok.inj hplace
    exact distinct_place (.scalar _) hframes

/-- Taking an event keeps keys distinct. -/
theorem distinct_take {event : Event} {frames : List Frame}
    (hframes : ∀ frame ∈ frames, frame.Distinct) {building : Building}
    (htake : take event frames = .ok building) : building.Distinct := by
  unfold take at htake
  -- a tag or an anchor refuses the node, whatever it is
  split at htake
  · split at htake
    · contradiction
    · split at htake
      · contradiction
      · exact distinct_placeScalar hframes htake
  · split at htake
    · contradiction
    · split at htake
      · contradiction
      · have hempty : (Frame.sequence []).Distinct :=
          Outline.Distinct.sequence (List.forall_mem_nil _)
        exact distinct_openFrame hempty hframes htake
  · split at htake
    · contradiction
    · split at htake
      · contradiction
      · have hempty : (Frame.key []).Distinct :=
          Outline.Distinct.mapping .nil (List.forall_mem_nil _)
        exact distinct_openFrame hempty hframes htake
  · obtain rfl := Except.ok.inj htake
    exact distinct_closeFrame hframes
  · obtain rfl := Except.ok.inj htake
    exact distinct_closeFrame hframes
  · obtain rfl := Except.ok.inj htake
    exact hframes

/-- Building an outline keeps keys distinct. -/
theorem distinct_build {building : Building} (hbuilding : building.Distinct) {events : List Event}
    {outline : Outline} (hbuild : build building events = .ok (some outline)) :
    outline.Distinct := by
  induction events generalizing building with
  | nil =>
      cases building with
      | finished finished => exact Option.some.inj (Except.ok.inj hbuild) ▸ hbuilding
      | inside frames => cases hbuild
  | cons event rest ih =>
      cases building with
      | finished finished => exact Option.some.inj (Except.ok.inj hbuild) ▸ hbuilding
      | inside frames =>
          unfold build at hbuild
          split at hbuild
          · contradiction
          · next building htake => exact ih (distinct_take hbuilding htake) hbuild

/-- The keys of an outline that has been read are distinct. -/
theorem distinct_of_read {text : String} {outline : Outline}
    (hread : read text = .ok (some outline)) : outline.Distinct := by
  unfold read at hread
  simp only at hread
  split at hread
  · contradiction
  · have hstart : (Building.inside []).Distinct := List.forall_mem_nil _
    exact distinct_build hstart hread

/-! ## Looking for an entry -/

/-- With distinct keys, the entry that is found under a key is the only one there. -/
theorem Distinct.filter_key_eq (hentries : Distinct (.mapping entries)) (name : String) :
    (entries.filter fun entry => entry.1.text = name) = (entryOf? name entries).toList := by
  obtain ⟨hkeys, -⟩ := distinct_mapping.mp hentries
  clear hentries
  induction entries with
  | nil => rfl
  | cons entry rest ih =>
      rw [List.map_cons, List.nodup_cons] at hkeys
      rw [entryOf?, List.find?_cons, List.filter_cons]
      by_cases hname : entry.1.text = name
      · have hrest : (rest.filter fun other => other.1.text = name) = [] := by
          rw [List.filter_eq_nil_iff]
          intro other hother
          have hne : other.1.text ≠ entry.1.text := fun hsame =>
            hkeys.1 (hsame ▸ List.mem_map_of_mem hother)
          simpa [← hname] using hne
        simp [hname, hrest]
      · simpa [entryOf?, hname] using ih hkeys.2

end RamlCheck.Outline
