import RamlCheck.Proofs.Document.Entering
import RamlCheck.Proofs.Document.Trail
import RamlCheck.Proofs.Outline.Keys

/-!
# Methods in the order of the document

Methods are listed resource by resource, each resource in front of those inside of it.  So the
methods of a resource come in front of all methods of a nested resource, even where that one
stands in front of them.  In a document whose keys follow one another, the methods do so too
if and only if no method stands behind a nested resource that has methods
(`Document.methods_follow_iff`).  `Document.methods_out_of_place` is a document in which one does.

## Strategy

The order of trails is the order in which the keys of an outline are met, so that of two keys
the one with the earlier trail has the earlier place (`Outline.follows_of_precedes`).  What is
left is to compare the order of trails with the order of the list, in which the trail of a
resource counts before the index of a method in it.
-/

namespace RamlCheck

/-- Of two members of a list that is in some order, one comes first. -/
theorem listed_either {Member : Type} {Before : Member → Member → Prop} {members : List Member}
    (horder : members.Pairwise Before) {first second : Member} (hfirst : first ∈ members)
    (hsecond : second ∈ members) (hne : first ≠ second) :
    Before first second ∨ Before second first := by
  have hsymm : Std.Symm fun first second => Before first second ∨ Before second first :=
    ⟨fun _ _ => Or.symm⟩
  have heither : members.Pairwise fun first second =>
      Before first second ∨ Before second first := horder.imp Or.inl
  exact heither.forall hfirst hsecond hne

/-! ## Places and trails -/

/-- Whether a place comes before another one. -/
def Place.Before (first second : Place) : Prop :=
  first.line < second.line ∨ first.line = second.line ∧ first.column < second.column

instance (first second : Place) : Decidable (first.Before second) :=
  inferInstanceAs (Decidable (_ ∨ _))

theorem Place.Before.not_before {first second : Place} (hbefore : first.Before second) :
    ¬ second.Before first := by
  unfold Place.Before at hbefore ⊢
  omega

namespace Trail

/-- A trail that comes behind another one leads somewhere. -/
theorem Precedes.ne_nil {first second : Trail} (hprecedes : Precedes first second) :
    second ≠ [] := by
  cases hprecedes with
  | inside outer index rest => exact List.append_ne_nil_of_right_ne_nil _ (List.cons_ne_nil _ _)
  | sibling outer _ _ others => exact List.append_ne_nil_of_right_ne_nil _ (List.cons_ne_nil _ _)

/-- Trails are compared index by index. -/
theorem precedes_cons_iff {index later : Nat} {first second : Trail} :
    Precedes (index :: first) (later :: second) ↔
      index < later ∨ index = later ∧ Precedes first second := by
  constructor
  · intro hprecedes
    generalize hfirst : index :: first = whole at hprecedes
    generalize hsecond : later :: second = other at hprecedes
    cases hprecedes with
    | inside _ further rest =>
        subst hfirst
        obtain ⟨rfl, rfl⟩ := List.cons.inj hsecond
        exact .inr ⟨rfl, .inside first further rest⟩
    | sibling outer hlater rest others =>
        cases outer with
        | nil =>
            obtain ⟨rfl, -⟩ := List.cons.inj hfirst
            obtain ⟨rfl, -⟩ := List.cons.inj hsecond
            exact .inl hlater
        | cons outermost outer =>
            obtain ⟨rfl, rfl⟩ := List.cons.inj hfirst
            obtain ⟨rfl, rfl⟩ := List.cons.inj hsecond
            exact .inr ⟨rfl, .sibling outer hlater rest others⟩
  · rintro (hlater | ⟨rfl, hprecedes⟩)
    · exact .sibling [] hlater first second
    · exact hprecedes.cons index

theorem Precedes.not_precedes {first second : Trail} (hprecedes : Precedes first second) :
    ¬ Precedes second first := by
  intro hback
  induction first generalizing second with
  | nil => exact hback.ne_nil rfl
  | cons index first ih =>
      cases second with
      | nil => exact hprecedes.ne_nil rfl
      | cons later second =>
          rcases precedes_cons_iff.mp hprecedes with hlater | ⟨rfl, hinside⟩
          · rcases precedes_cons_iff.mp hback with hearlier | ⟨hsame, -⟩
            · exact Nat.lt_asymm hlater hearlier
            · exact absurd hsame.symm (Nat.ne_of_lt hlater)
          · rcases precedes_cons_iff.mp hback with hself | ⟨-, hback⟩
            · exact Nat.lt_irrefl _ hself
            · exact ih hinside hback

end Trail

/-! ## Keys -/

namespace Outline

/-- Whether a trail leads to the entry with a key. -/
inductive KeyAt : List (Label × Outline) → Trail → Label → Prop
  | among {entries : List (Label × Outline)} {index : Nat} {key : Label} {node : Outline}
      (hentry : entries[index]? = some (key, node)) : KeyAt entries [index] key
  | inside {entries inner : List (Label × Outline)} {index : Nat} {outer key : Label}
      {trail : Trail} (hentry : entries[index]? = some (outer, .mapping inner))
      (hinner : KeyAt inner trail key) : KeyAt entries (index :: trail) key

/-- The keys of an entry: its own and those in its value. -/
def keysOfEntry (entry : Label × Outline) : List Label :=
  entry.1 :: keys entry.2

theorem keysOfEntries_eq (entries : List (Label × Outline)) :
    keysOfEntries entries = entries.flatMap keysOfEntry := by
  induction entries with
  | nil => rfl
  | cons entry rest ih => simp [keysOfEntries, keysOfEntry, ih]

/-- A trail leads into the entry that its first index is the one of. -/
theorem KeyAt.exists_entry {entries : List (Label × Outline)} {index : Nat} {rest : Trail}
    {key : Label} (hat : KeyAt entries (index :: rest) key) :
    ∃ entry, entries[index]? = some entry ∧
      (rest = [] ∧ key = entry.1 ∨ ∃ inner, entry.2 = .mapping inner ∧ KeyAt inner rest key) := by
  cases hat with
  | among hentry => exact ⟨_, hentry, .inl ⟨rfl, rfl⟩⟩
  | inside hentry hinner => exact ⟨_, hentry, .inr ⟨_, rfl, hinner⟩⟩

theorem KeyAt.exists_cons {entries : List (Label × Outline)} {trail : Trail} {key : Label}
    (hat : KeyAt entries trail key) : ∃ index rest, trail = index :: rest := by
  cases hat with
  | among => exact ⟨_, [], rfl⟩
  | inside => exact ⟨_, _, rfl⟩

theorem KeyAt.mem_keys {entries : List (Label × Outline)} {trail : Trail} {key : Label}
    (hat : KeyAt entries trail key) : key ∈ keysOfEntries entries := by
  induction hat with
  | among hentry => exact mem_keysOfEntries.mpr ⟨_, List.mem_of_getElem? hentry, .inl rfl⟩
  | inside hentry _ ih =>
      exact mem_keysOfEntries.mpr ⟨_, List.mem_of_getElem? hentry, .inr ih⟩

variable {Before : Label → Label → Prop}

/-- Where the keys are in some order, the keys of an entry come before those of a later one. -/
theorem before_of_index_lt {entries : List (Label × Outline)}
    (hkeys : (keysOfEntries entries).Pairwise Before) {index later : Nat}
    (hlater : index < later) {entry other : Label × Outline} (hentry : entries[index]? = some entry)
    (hother : entries[later]? = some other) {key further : Label} (hkey : key ∈ keysOfEntry entry)
    (hfurther : further ∈ keysOfEntry other) : Before key further := by
  rw [keysOfEntries_eq, List.pairwise_flatMap] at hkeys
  obtain ⟨hindex, rfl⟩ := List.getElem?_eq_some_iff.mp hentry
  obtain ⟨hbound, rfl⟩ := List.getElem?_eq_some_iff.mp hother
  exact List.pairwise_iff_getElem.mp hkeys.2 index later hindex hbound hlater key hkey further
    hfurther

theorem pairwise_keysOfEntry {entries : List (Label × Outline)}
    (hkeys : (keysOfEntries entries).Pairwise Before) {index : Nat} {entry : Label × Outline}
    (hentry : entries[index]? = some entry) : (keysOfEntry entry).Pairwise Before := by
  rw [keysOfEntries_eq, List.pairwise_flatMap] at hkeys
  exact hkeys.1 entry (List.mem_of_getElem? hentry)

/-- Where the keys are in some order, that is the order of their trails. -/
theorem before_of_precedes {entries : List (Label × Outline)}
    (hkeys : (keysOfEntries entries).Pairwise Before) {first second : Trail} {key other : Label}
    (hkey : KeyAt entries first key) (hother : KeyAt entries second other)
    (hprecedes : Trail.Precedes first second) : Before key other := by
  -- along the trail that both have in common
  induction first generalizing entries second with
  | nil => exact absurd hkey.exists_cons (by simp)
  | cons index rest ih =>
      obtain ⟨later, others, rfl⟩ := hother.exists_cons
      obtain ⟨entry, hentry, hplace⟩ := hkey.exists_entry
      obtain ⟨further, hfurther, hlast⟩ := hother.exists_entry
      rcases Trail.precedes_cons_iff.mp hprecedes with hlater | ⟨rfl, hinside⟩
      · refine before_of_index_lt hkeys hlater hentry hfurther ?_ ?_
        · rcases hplace with ⟨-, rfl⟩ | ⟨inner, hinner, hat⟩
          · exact List.mem_cons_self
          · exact List.mem_cons_of_mem _ (by rw [hinner]; exact hat.mem_keys)
        · rcases hlast with ⟨-, rfl⟩ | ⟨inner, hinner, hat⟩
          · exact List.mem_cons_self
          · exact List.mem_cons_of_mem _ (by rw [hinner]; exact hat.mem_keys)
      · obtain rfl := Option.some.inj (hentry.symm.trans hfurther)
        have hboth := List.pairwise_cons.mp (pairwise_keysOfEntry hkeys hentry)
        rcases hlast with ⟨rfl, -⟩ | ⟨inner, hinner, hat⟩
        · exact absurd rfl hinside.ne_nil
        · rw [hinner] at hboth
          rcases hplace with ⟨-, rfl⟩ | ⟨same, hsame, hinner'⟩
          · exact hboth.1 other hat.mem_keys
          · obtain rfl := Outline.mapping.inj (hinner.symm.trans hsame)
            exact ih hboth.2 hinner' hat hinside

end Outline

/-! ## Methods -/

theorem Resource.IsAt.keyAt {entries inner : List (Label × Outline)} {trail : Trail}
    {resource : Resource} (hat : Resource.IsAt entries trail resource)
    (hinner : resource.node = .mapping inner) {index : Nat} {key : Label} {node : Outline}
    (hentry : inner[index]? = some (key, node)) :
    Outline.KeyAt entries (trail ++ [index]) key := by
  induction hat with
  | among houter =>
      obtain rfl := hinner
      exact .inside houter (.among hentry)
  | inside houter _ _ ih => exact .inside houter (ih hinner)

/-- The key of a method stands at the trail of its resource and its index there. -/
theorem Method.IsAt.keyAt {entries : List (Label × Outline)} {outer : Trail} {index : Nat}
    {method : Method} (hat : Method.IsAt entries (outer, index) method) :
    Outline.KeyAt entries (outer ++ [index]) method.key := by
  cases hat with
  | declared hresource hinner hentry => exact hresource.keyAt hinner hentry

namespace Document

open Outline (keysOfEntries)

variable (document : Document)

/-- Whether each key of a document, at any depth, has a place behind those of the keys that are
met before it. -/
def KeysFollow : Prop :=
  (keysOfEntries document.root).Pairwise fun first second => first.place.Before second.place

/-- Whether the methods of a document are listed in the order of their places. -/
def MethodsFollow : Prop :=
  document.methods.Pairwise fun first second => first.key.place.Before second.key.place

instance : Decidable document.KeysFollow :=
  inferInstanceAs (Decidable (List.Pairwise _ _))

instance : Decidable document.MethodsFollow :=
  inferInstanceAs (Decidable (List.Pairwise _ _))

/-- Whether each resource declares its methods in front of the resources in it that have methods
themselves, or in which others have. -/
def MethodsFirst : Prop :=
  ∀ outer index position further last method other,
    Method.IsAt document.root (outer, index) method →
      Method.IsAt document.root (outer ++ position :: further, last) other → index < position

variable {document}

theorem KeysFollow.before (hkeys : document.KeysFollow) {outer further : Trail} {index last : Nat}
    {method other : Method} (hmethod : Method.IsAt document.root (outer, index) method)
    (hother : Method.IsAt document.root (further, last) other)
    (hprecedes : Trail.Precedes (outer ++ [index]) (further ++ [last])) :
    method.key.place.Before other.key.place :=
  Outline.before_of_precedes hkeys hmethod.keyAt hother.keyAt hprecedes

/-- If methods come first, the order of resources is that of the methods in them. -/
theorem MethodsFirst.precedes (hfirst : document.MethodsFirst) {outer further : Trail}
    {index last : Nat} {method other : Method}
    (hmethod : Method.IsAt document.root (outer, index) method)
    (hother : Method.IsAt document.root (further, last) other)
    (hbefore : Prod.Lex Trail.Precedes (· < · : Nat → Nat → Prop) (outer, index) (further, last)) :
    Trail.Precedes (outer ++ [index]) (further ++ [last]) := by
  cases hbefore with
  | left _ _ hresources =>
      cases hresources with
      | inside _ position rest =>
          have hposition := hfirst outer index position rest last method other hmethod hother
          rw [List.append_assoc]
          exact .sibling outer hposition [] (rest ++ [last])
      | sibling common hlater rest others =>
          rw [List.append_assoc, List.append_assoc]
          exact .sibling common hlater (rest ++ [index]) (others ++ [last])
  | right _ hindex => exact .sibling outer hindex [] []

/-- In a document whose keys follow one another, the methods are listed in the order of their
places if and only if no method stands behind a nested resource that has methods in it. -/
theorem methods_follow_iff (hkeys : document.KeysFollow) :
    document.MethodsFollow ↔ document.MethodsFirst := by
  obtain ⟨placed, hmethods, -, horder, hmem⟩ := document.lists_methods
  unfold MethodsFollow
  rw [← hmethods, List.pairwise_map]
  constructor
  · intro hfollow outer index position further last method other hmethod hother
    have hinside : Trail.Precedes outer (outer ++ position :: further) :=
      .inside outer position further
    have hne : index ≠ position := by
      rintro rfl
      cases hother with
      | declared hresource => exact hmethod.not_through hresource
    by_contra hbehind
    -- the key of the nested method comes first in the document
    have hkey : other.key.place.Before method.key.place := by
      refine hkeys.before hother hmethod ?_
      rw [List.append_assoc]
      exact .sibling outer (by omega) (further ++ [last]) []
    -- but in the list the method of the outer resource does
    rcases listed_either (horder.and hfollow) ((hmem _ _).mpr hmethod) ((hmem _ _).mpr hother)
        (fun hsame => hinside.ne (congrArg (·.1.1) hsame)) with hlisted | hlisted
    · exact hkey.not_before hlisted.2
    · rcases Prod.lex_def.mp hlisted.1 with hback | ⟨hsame, -⟩
      · exact hinside.not_precedes hback
      · exact hinside.ne hsame.symm
  · intro hfirst
    refine horder.imp_of_mem fun {first second} hmethod hother hbefore => ?_
    have hmethod := (hmem first.1 first.2).mp hmethod
    have hother := (hmem second.1 second.2).mp hother
    exact hkeys.before hmethod hother (hfirst.precedes hmethod hother hbefore)

/-- A document in which a method stands behind a nested resource, but no other method is in that
one. -/
def methodBehindResource : String :=
  "#%RAML 1.0\n/a:\n /b:\n  type: x\n get:\n /c:\n  put:\n"

theorem follow_of_method_behind_resource :
    (load "api.raml" "" methodBehindResource).toOption.any (fun document =>
      document.KeysFollow ∧ document.MethodsFollow ∧
        document.methods.map (fun method => method.key.text) = ["get", "put"]) = true := by
  decide +kernel

/-- Its methods are listed in the order of their places, and they come first. -/
theorem methods_first_of_follow :
    ∃ document, load "api.raml" "" methodBehindResource = .ok document ∧ document.KeysFollow ∧
      document.MethodsFollow ∧ document.MethodsFirst := by
  obtain ⟨document, hload, hany⟩ := exists_of_any follow_of_method_behind_resource
  obtain ⟨hkeys, hfollow, -⟩ := of_decide_eq_true hany
  exact ⟨document, hload, hkeys, hfollow, (methods_follow_iff hkeys).mp hfollow⟩

/-- With a method in the nested resource, the keys follow one another still, but the methods are
not listed in the order of their places any more. -/
theorem methods_out_of_place :
    (load "api.raml" "" "#%RAML 1.0\n/a:\n /b:\n  get:\n post:\n").toOption.any (fun document =>
      document.KeysFollow ∧ ¬ document.MethodsFollow ∧
        document.methods.map (fun method => (method.key.text, method.key.place)) =
          [("post", { line := 5, column := 2 }), ("get", { line := 4, column := 3 })]) = true := by
  decide +kernel

end Document

end RamlCheck
