import Mathlib.Data.List.Basic
import Mathlib.Data.List.Nodup
import Mathlib.Order.Defs.Unbundled
import Mathlib.Tactic.Choose

/-!
# Lists that hold everything once

What a program collects often stands at addresses: an entry at its index, a key at the
trail that leads to it.  `Lists Before IsAt values` says that `values` is all that stands at
some address, each thing once for each of its addresses, in an order of these.

## Strategy

A list that is put together from others by `++` or `flatMap` holds what they hold
(`Lists.append`, `Lists.flatMap`), as long as no address of a later part comes before one of
an earlier part.  Addresses can be replaced by others that keep their order
(`Lists.readdress`).  So no proof about a collector has to look at its lists: it shows where
each part stands.
-/

namespace RamlCheck

variable {Address Other Value Result : Type}

instance irrefl_ne : Std.Irrefl (fun first second : Address => first ≠ second) :=
  ⟨fun _ hne => hne rfl⟩

/-- Whether a list holds all that stands at some address, in an order of the addresses.  No
address occurs twice, so each thing is held once for each address that it stands at. -/
def Lists (Before : Address → Address → Prop) (IsAt : Address → Value → Prop)
    (values : List Value) : Prop :=
  ∃ placed : List (Address × Value),
    placed.map Prod.snd = values ∧
    (placed.map Prod.fst).Nodup ∧
    (placed.Pairwise fun first second => Before first.1 second.1) ∧
    ∀ address value, (address, value) ∈ placed ↔ IsAt address value

namespace Lists

variable {Before : Address → Address → Prop} {BeforeOther : Other → Other → Prop}
  {IsAt IsAlsoAt : Address → Value → Prop} {values others : List Value}

/-- In an order in which nothing comes before itself, no address occurs twice. -/
theorem of_pairwise [Std.Irrefl Before] {placed : List (Address × Value)}
    (horder : placed.Pairwise fun first second => Before first.1 second.1)
    (hmem : ∀ address value, (address, value) ∈ placed ↔ IsAt address value) :
    Lists Before IsAt (placed.map Prod.snd) := by
  have hne : placed.Pairwise fun first second => first.1 ≠ second.1 := by
    apply horder.imp
    intro first second hbefore
    exact ne_of_irrefl hbefore
  exact ⟨placed, rfl, List.pairwise_map.mpr hne, horder, hmem⟩

theorem congr (hlists : Lists Before IsAt values)
    (hiff : ∀ address value, IsAt address value ↔ IsAlsoAt address value) :
    Lists Before IsAlsoAt values := by
  obtain ⟨placed, hvalues, hnodup, horder, hmem⟩ := hlists
  exact ⟨placed, hvalues, hnodup, horder, fun address value =>
    (hmem address value).trans (hiff address value)⟩

theorem nil (hnone : ∀ address value, ¬ IsAt address value) : Lists Before IsAt [] :=
  ⟨[], rfl, .nil, .nil, fun address value => by simp [hnone]⟩

theorem singleton (address : Address) (value : Value) :
    Lists Before (fun other result => other = address ∧ result = value) [value] :=
  ⟨[(address, value)], rfl, by simp, by simp, fun _ _ => by simp⟩

/-- The values of some list that are all at one address, as there is one at most. -/
theorem of_length_le_one (address : Address) (hlength : values.length ≤ 1) :
    Lists Before (fun other value => other = address ∧ value ∈ values) values := by
  match values with
  | [] => exact nil fun _ _ hmem => absurd hmem.2 List.not_mem_nil
  | [value] => exact (singleton address value).congr fun _ _ => by rw [List.mem_singleton]

theorem append [Std.Irrefl Before] (hvalues : Lists Before IsAt values)
    (hothers : Lists Before IsAlsoAt others)
    (hbefore : ∀ first value second other, IsAt first value → IsAlsoAt second other →
      Before first second) :
    Lists Before (fun address value => IsAt address value ∨ IsAlsoAt address value)
      (values ++ others) := by
  obtain ⟨placed, rfl, -, horder, hmem⟩ := hvalues
  obtain ⟨also, rfl, -, halso, hmemAlso⟩ := hothers
  rw [← List.map_append]
  refine of_pairwise (List.pairwise_append.mpr ⟨horder, halso, ?_⟩) fun address value => ?_
  · intro first hfirst second hsecond
    exact hbefore _ _ _ _ ((hmem _ _).mp hfirst) ((hmemAlso _ _).mp hsecond)
  · rw [List.mem_append, hmem, hmemAlso]

/-- Where each value of a list gives way to the values of a further list, these stand where
their own lists have them. -/
theorem flatMap [Std.Irrefl BeforeOther] {IsIn : Address → Value → Other → Result → Prop}
    {results : Value → List Result} (hvalues : Lists Before IsAt values)
    (hresults : ∀ address value, IsAt address value →
      Lists BeforeOther (IsIn address value) (results value))
    (hbefore : ∀ first value second other, IsAt first value → IsAt second other →
      Before first second → ∀ inner result further last, IsIn first value inner result →
        IsIn second other further last → BeforeOther inner further) :
    Lists BeforeOther
      (fun inner result => ∃ address value, IsAt address value ∧ IsIn address value inner result)
      (values.flatMap results) := by
  obtain ⟨placed, rfl, -, horder, hmem⟩ := hvalues
  -- what is listed is known of a value only where it stands, so elsewhere nothing is placed
  have hinner : ∀ place : Address × Value, ∃ inner : List (Other × Result), place ∈ placed →
      inner.map Prod.snd = results place.2 ∧
        (inner.Pairwise fun first second => BeforeOther first.1 second.1) ∧
        ∀ other result, (other, result) ∈ inner ↔ IsIn place.1 place.2 other result := by
    intro place
    by_cases hplace : place ∈ placed
    · obtain ⟨inner, hvalues, -, hinner⟩ := hresults _ _ ((hmem place.1 place.2).mp hplace)
      exact ⟨inner, fun _ => ⟨hvalues, hinner⟩⟩
    · exact ⟨[], fun hmem => absurd hmem hplace⟩
  choose inner hinner using hinner
  have hflat : (placed.map Prod.snd).flatMap results = (placed.flatMap inner).map Prod.snd := by
    rw [List.flatMap_map, List.map_flatMap]
    exact List.flatMap_congr fun place hplace => (hinner place hplace).1.symm
  rw [hflat]
  refine of_pairwise (List.pairwise_flatMap.mpr ⟨fun place hplace => (hinner place hplace).2.1,
    horder.imp_of_mem ?_⟩) fun other result => ?_
  · intro first second hfirst hsecond hbetween inside hinside further hfurther
    exact hbefore _ _ _ _ ((hmem _ _).mp hfirst) ((hmem _ _).mp hsecond) hbetween _ _ _ _
      (((hinner first hfirst).2.2 _ _).mp hinside) (((hinner second hsecond).2.2 _ _).mp hfurther)
  · rw [List.mem_flatMap]
    constructor
    · rintro ⟨place, hplace, hresult⟩
      exact ⟨place.1, place.2, (hmem _ _).mp hplace,
        ((hinner place hplace).2.2 other result).mp hresult⟩
    · rintro ⟨address, value, hvalue, hresult⟩
      have hplace := (hmem address value).mpr hvalue
      exact ⟨(address, value), hplace, ((hinner _ hplace).2.2 other result).mpr hresult⟩

/-- Where each value gives way to one result at most, this stands at the address of the
value, which may be replaced by others in the same order. -/
theorem flatMap_of_length_le_one [Std.Irrefl BeforeOther] {results : Value → List Result}
    (hvalues : Lists Before IsAt values) (readdressed : Address → Other)
    (hlength : ∀ value, (results value).length ≤ 1)
    (hbefore : ∀ first second, Before first second →
      BeforeOther (readdressed first) (readdressed second)) :
    Lists BeforeOther
      (fun other result => ∃ address value, IsAt address value ∧ other = readdressed address ∧
        result ∈ results value)
      (values.flatMap results) := by
  refine hvalues.flatMap (fun address value _ =>
    of_length_le_one (readdressed address) (hlength value)) ?_
  rintro first _ second _ - - hbetween _ _ _ _ ⟨rfl, -⟩ ⟨rfl, -⟩
  exact hbefore first second hbetween

/-- Things may be said to stand at other addresses that are in the same order. -/
theorem readdress [Std.Irrefl BeforeOther] (readdressed : Address → Other)
    (hlists : Lists Before IsAt values)
    (hbefore : ∀ first second, Before first second →
      BeforeOther (readdressed first) (readdressed second)) :
    Lists BeforeOther
      (fun other value => ∃ address, IsAt address value ∧ other = readdressed address) values := by
  obtain ⟨placed, rfl, -, horder, hmem⟩ := hlists
  have hvalues : placed.map Prod.snd =
      (placed.map fun place => (readdressed place.1, place.2)).map Prod.snd := by
    rw [List.map_map]
    rfl
  rw [hvalues]
  refine of_pairwise (List.pairwise_map.mpr (horder.imp fun hbetween => hbefore _ _ hbetween))
    fun other value => ?_
  rw [List.mem_map]
  constructor
  · rintro ⟨place, hplace, heq⟩
    obtain ⟨rfl, rfl⟩ := Prod.mk.inj heq
    exact ⟨place.1, (hmem _ _).mp hplace, rfl⟩
  · rintro ⟨address, hvalue, rfl⟩
    exact ⟨(address, value), (hmem _ _).mpr hvalue, rfl⟩

theorem filter (hlists : Lists Before IsAt values) (keep : Value → Bool) :
    Lists Before (fun address value => IsAt address value ∧ keep value = true)
      (values.filter keep) := by
  obtain ⟨placed, rfl, hnodup, horder, hmem⟩ := hlists
  let kept := placed.filter fun place => keep place.2
  refine ⟨kept, ?_, ?_, horder.filter _, fun address value => ?_⟩
  · rw [List.filter_map]
    rfl
  · exact hnodup.sublist (List.filter_sublist.map Prod.fst)
  · rw [List.mem_filter, hmem]

theorem map (hlists : Lists Before IsAt values) (result : Value → Result) :
    Lists Before (fun address shown => ∃ value, IsAt address value ∧ shown = result value)
      (values.map result) := by
  obtain ⟨placed, rfl, hnodup, horder, hmem⟩ := hlists
  refine ⟨placed.map fun place => (place.1, result place.2), ?_, ?_, ?_, fun address shown => ?_⟩
  · rw [List.map_map, List.map_map]
    rfl
  · rw [List.map_map]
    exact hnodup
  · exact List.pairwise_map.mpr horder
  · rw [List.mem_map]
    constructor
    · rintro ⟨place, hplace, heq⟩
      obtain ⟨rfl, rfl⟩ := Prod.mk.inj heq
      exact ⟨place.2, (hmem _ _).mp hplace, rfl⟩
    · rintro ⟨value, hvalue, rfl⟩
      exact ⟨(address, value), (hmem _ _).mpr hvalue, rfl⟩

/-- Each item of a list stands at its index. -/
theorem of_list (items : List Value) :
    Lists (· < · : Nat → Nat → Prop) (fun index item => items[index]? = some item) items := by
  have hvalues : items = (items.zipIdx.map Prod.swap).map Prod.snd := by
    rw [List.map_map]
    exact (List.zipIdx_map_fst 0 items).symm
  have hindices : items.zipIdx.Pairwise fun first second => first.2 < second.2 := by
    rw [← List.pairwise_map, List.zipIdx_map_snd]
    exact List.pairwise_lt_range'
  have hlists : Lists (· < · : Nat → Nat → Prop) (fun index item => items[index]? = some item)
      ((items.zipIdx.map Prod.swap).map Prod.snd) := by
    refine of_pairwise (List.pairwise_map.mpr hindices) fun index item => ?_
    rw [List.mem_map]
    constructor
    · rintro ⟨place, hplace, heq⟩
      obtain ⟨rfl, rfl⟩ := Prod.mk.inj heq
      exact List.mem_zipIdx_iff_getElem?.mp hplace
    · intro hitem
      exact ⟨(item, index), List.mem_zipIdx_iff_getElem?.mpr hitem, rfl⟩
  rwa [← hvalues] at hlists

end Lists

end RamlCheck
