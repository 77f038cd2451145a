import Mathlib.Data.Prod.Lex
import RamlCheck.Document.Resource
import RamlCheck.Proofs.Listing

/-!
# Where resources and methods stand

A trail leads to an entry of nested mappings: it holds the index of the entry and, in front
of it, the indices of the entries around it.  `Resource.IsAt` says which trails lead to
resources, without regard to how these are collected.  The resources of a document are what
stands at such trails, each once, parents in front of their children and siblings in their
order; its methods are the entries of these with the key of a method, resource by resource
(`Document.resources_listed`).

## Strategy

The recursion is that of `Resource.ofEntries`: what stands in a list of entries is the first
entry, what is inside of it, and what stands in the others with the first index raised
(`Resource.isAt_cons`).
-/

namespace RamlCheck

/-- The way to an entry of nested mappings: the index of each entry that is passed, then its
own. -/
abbrev Trail := List Nat

namespace Trail

/-- The order of entries in a document: each one stands in front of those inside of it, and
with these in front of the entries that follow it in its mapping. -/
inductive Precedes : Trail → Trail → Prop
  | inside (outer : Trail) (index : Nat) (rest : Trail) : Precedes outer (outer ++ index :: rest)
  | sibling (outer : Trail) {index later : Nat} (hlater : index < later) (rest others : Trail) :
      Precedes (outer ++ index :: rest) (outer ++ later :: others)

theorem Precedes.ne {first second : Trail} (hprecedes : Precedes first second) :
    first ≠ second := by
  intro hsame
  cases hprecedes with
  | inside outer index rest =>
      have hlength := congrArg List.length hsame
      simp at hlength
  | sibling outer hlater rest others =>
      have hindex := (List.cons.inj (List.append_cancel_left hsame)).1
      exact absurd hindex (Nat.ne_of_lt hlater)

instance : Std.Irrefl Precedes :=
  ⟨fun _ hprecedes => hprecedes.ne rfl⟩

/-- The order is kept one level further in. -/
theorem Precedes.cons {first second : Trail} (hprecedes : Precedes first second) (index : Nat) :
    Precedes (index :: first) (index :: second) := by
  cases hprecedes with
  | inside outer further rest => exact .inside (index :: _) further rest
  | sibling outer hlater rest others => exact .sibling (index :: outer) hlater rest others

/-- The order is kept inside of an entry. -/
theorem Precedes.behind {first second : Trail} (hprecedes : Precedes first second)
    (outer : Trail) : Precedes (outer ++ first) (outer ++ second) := by
  induction outer with
  | nil => exact hprecedes
  | cons index outer ih => exact ih.cons index

/-- The trail to the same entry, if there is one more entry in front at the root. -/
def shift : Trail → Trail
  | [] => []
  | index :: rest => (index + 1) :: rest

theorem Precedes.shift {first second : Trail} (hprecedes : Precedes first second) :
    Precedes first.shift second.shift := by
  cases hprecedes with
  | inside outer index rest =>
      cases first with
      | nil => exact .inside [] (index + 1) rest
      | cons outermost outer => exact .inside ((outermost + 1) :: outer) index rest
  | sibling outer hlater rest others =>
      cases outer with
      | nil => exact .sibling [] (Nat.succ_lt_succ hlater) rest others
      | cons outermost outer => exact .sibling ((outermost + 1) :: outer) hlater rest others

end Trail

/-- What has an entry at some index is a mapping. -/
theorem Outline.getElem?_entries {node : Outline} {index : Nat} {entry : Label × Outline} :
    (node.entries?.getD [])[index]? = some entry ↔
      ∃ entries, node = .mapping entries ∧ entries[index]? = some entry := by
  cases node <;> simp [entries?]

/-! ## Resources -/

namespace Resource

/-- Whether a trail leads to a resource: each entry that it passes is a resource that is a
mapping. -/
inductive IsAt : List (Label × Outline) → Trail → Resource → Prop
  | among {entries : List (Label × Outline)} {index : Nat} {key : Label} {node : Outline}
      (hentry : entries[index]? = some (key, node)) (hkey : Key.isResource key.text = true) :
      IsAt entries [index] { key, node }
  | inside {entries inner : List (Label × Outline)} {index : Nat} {key : Label} {trail : Trail}
      {resource : Resource} (hentry : entries[index]? = some (key, .mapping inner))
      (hkey : Key.isResource key.text = true) (hinner : IsAt inner trail resource) :
      IsAt entries (index :: trail) resource

variable {entries rest : List (Label × Outline)} {trail : Trail} {resource : Resource}

theorem not_isAt_nil : ¬ IsAt [] trail resource := by
  intro hat
  cases hat with
  | among hentry => simp at hentry
  | inside hentry => simp at hentry

theorem IsAt.exists_cons (hat : IsAt entries trail resource) :
    ∃ index others, trail = index :: others := by
  cases hat with
  | among => exact ⟨_, [], rfl⟩
  | inside => exact ⟨_, _, rfl⟩

/-- A trail leads into one entry, which is a resource: to this entry or into what it holds. -/
theorem isAt_index {index : Nat} {others : Trail} :
    IsAt entries (index :: others) resource ↔
      ∃ key node, entries[index]? = some (key, node) ∧ Key.isResource key.text = true ∧
        (others = [] ∧ resource = { key, node } ∨
          IsAt (node.entries?.getD []) others resource) := by
  constructor
  · intro hat
    cases hat with
    | among hentry hkey => exact ⟨_, _, hentry, hkey, .inl ⟨rfl, rfl⟩⟩
    | inside hentry hkey hinner => exact ⟨_, _, hentry, hkey, .inr hinner⟩
  · rintro ⟨key, node, hentry, hkey, ⟨rfl, rfl⟩ | hinner⟩
    · exact .among hentry hkey
    · cases node with
      | mapping inner => exact .inside hentry hkey hinner
      | scalar label => exact absurd hinner not_isAt_nil
      | sequence items => exact absurd hinner not_isAt_nil

/-- With one more entry in front, each resource stands one entry further on. -/
theorem isAt_succ (entry : Label × Outline) {index : Nat} {others : Trail} :
    IsAt (entry :: rest) ((index + 1) :: others) resource ↔
      IsAt rest (index :: others) resource := by
  rw [isAt_index, isAt_index, List.getElem?_cons_succ]

/-- What stands in a list of entries is in the first entry or in the others. -/
theorem isAt_cons (key : Label) (node : Outline) :
    IsAt ((key, node) :: rest) trail resource ↔
      (Key.isResource key.text = true ∧
        ((trail = [0] ∧ resource = { key, node }) ∨
          ∃ others, IsAt (node.entries?.getD []) others resource ∧ trail = 0 :: others)) ∨
        ∃ others, IsAt rest others resource ∧ trail = others.shift := by
  constructor
  · intro hat
    obtain ⟨index, others, rfl⟩ := hat.exists_cons
    cases index with
    | zero =>
        obtain ⟨_, _, hentry, hkey, hplace⟩ := isAt_index.mp hat
        obtain ⟨rfl, rfl⟩ := Prod.mk.inj (Option.some.inj hentry)
        rcases hplace with ⟨rfl, hresource⟩ | hinner
        · exact .inl ⟨hkey, .inl ⟨rfl, hresource⟩⟩
        · exact .inl ⟨hkey, .inr ⟨others, hinner, rfl⟩⟩
    | succ index => exact .inr ⟨index :: others, (isAt_succ _).mp hat, rfl⟩
  · rintro (⟨hkey, ⟨rfl, hresource⟩ | ⟨others, hinner, rfl⟩⟩ | ⟨others, hothers, rfl⟩)
    · exact isAt_index.mpr ⟨key, node, rfl, hkey, .inl ⟨rfl, hresource⟩⟩
    · exact isAt_index.mpr ⟨key, node, rfl, hkey, .inr hinner⟩
    · obtain ⟨index, further, rfl⟩ := hothers.exists_cons
      exact (isAt_succ _).mpr hothers

/-- Behind the trail of a resource, a trail leads to resources only by way of its entries
that are resources. -/
theorem IsAt.isResource_of_append {inner : List (Label × Outline)} {index : Nat} {key : Label}
    {node : Outline} {other : Resource} {further : Trail} (hat : IsAt entries trail resource)
    (hinner : resource.node = .mapping inner) (hentry : inner[index]? = some (key, node))
    (hother : IsAt entries (trail ++ index :: further) other) :
    Key.isResource key.text = true := by
  -- along the trail that both have in common
  induction hat with
  | among houter =>
      obtain rfl := hinner
      obtain ⟨_, _, hsame, -, ⟨hnil, -⟩ | hbehind⟩ := isAt_index.mp hother
      · exact absurd hnil (List.cons_ne_nil _ _)
      · obtain ⟨-, rfl⟩ := Prod.mk.inj (Option.some.inj (houter.symm.trans hsame))
        obtain ⟨_, _, hfound, hkey, -⟩ := isAt_index.mp hbehind
        obtain ⟨rfl, -⟩ := Prod.mk.inj (Option.some.inj (hentry.symm.trans hfound))
        exact hkey
  | inside houter _ _ ih =>
      obtain ⟨_, _, hsame, -, ⟨hnil, -⟩ | hbehind⟩ := isAt_index.mp hother
      · exact absurd hnil (List.append_ne_nil_of_right_ne_nil _ (List.cons_ne_nil _ _))
      · obtain ⟨-, rfl⟩ := Prod.mk.inj (Option.some.inj (houter.symm.trans hsame))
        exact ih hinner hbehind

mutual

theorem lists_within : ∀ node : Outline,
    Lists Trail.Precedes (IsAt (node.entries?.getD [])) (within node)
  | .mapping entries => by
      rw [within]
      exact lists_ofEntries entries
  | .scalar _ => by
      rw [within]
      exact .nil fun _ _ => not_isAt_nil
  | .sequence _ => by
      rw [within]
      exact .nil fun _ _ => not_isAt_nil

/-- The resources of some entries are listed in the order of the document. -/
theorem lists_ofEntries : ∀ entries : List (Label × Outline),
    Lists Trail.Precedes (IsAt entries) (ofEntries entries)
  | [] => by
      rw [ofEntries_nil]
      exact .nil fun _ _ => not_isAt_nil
  | (key, node) :: rest => by
      have hinner := (lists_within node).readdress (0 :: ·) fun _ _ hprecedes => hprecedes.cons 0
      have hrest := (lists_ofEntries rest).readdress Trail.shift fun _ _ hprecedes =>
        hprecedes.shift
      rw [ofEntries_cons]
      split
      · next hkey =>
        -- the entry itself, then what is inside of it, then the others
        have hfirst := (Lists.singleton [0] { key, node }).append hinner ?_
        · refine (hfirst.append hrest ?_).congr fun trail resource => ?_
          · rintro first _ _ _ hplace ⟨others, hothers, rfl⟩
            obtain ⟨index, further, rfl⟩ := hothers.exists_cons
            obtain ⟨behind, rfl⟩ : ∃ behind, first = 0 :: behind := by
              rcases hplace with ⟨rfl, -⟩ | ⟨behind, -, rfl⟩
              · exact ⟨[], rfl⟩
              · exact ⟨behind, rfl⟩
            exact .sibling [] index.succ_pos behind further
          · rw [isAt_cons]
            simp [hkey]
        · rintro _ _ _ _ ⟨rfl, -⟩ ⟨others, hothers, rfl⟩
          obtain ⟨index, further, rfl⟩ := hothers.exists_cons
          exact .inside [0] index further
      · next hkey =>
        refine hrest.congr fun trail resource => ?_
        rw [isAt_cons]
        simp [hkey]

end

end Resource

/-! ## Methods -/

/-- Whether a method stands at the trail of its resource and the index of its entry there. -/
inductive Method.IsAt (entries : List (Label × Outline)) : Trail × Nat → Method → Prop
  | declared {trail : Trail} {resource : Resource} {inner : List (Label × Outline)} {index : Nat}
      {key : Label} {node : Outline} (hresource : Resource.IsAt entries trail resource)
      (hinner : resource.node = .mapping inner) (hentry : inner[index]? = some (key, node))
      (hkey : Key.isMethod key.text = true) :
      IsAt entries (trail, index) { resource := resource.key, key, node }

/-- No trail to a resource leads through a method. -/
theorem Method.IsAt.not_through {entries : List (Label × Outline)} {outer rest : Trail}
    {index : Nat} {method : Method} (hat : Method.IsAt entries (outer, index) method)
    {resource : Resource} : ¬ Resource.IsAt entries (outer ++ index :: rest) resource := by
  intro hthrough
  cases hat with
  | declared hresource hinner hentry hkey =>
      have hno := hresource.isResource_of_append hinner hentry hthrough
      exact absurd hkey (by simp [Key.not_isMethod_of_isResource hno])

/-- A trail leads through one method at most. -/
theorem Method.IsAt.eq_of_append {entries : List (Label × Outline)}
    {outer further rest others : Trail} {index position : Nat} {method other : Method}
    (hat : Method.IsAt entries (outer, index) method)
    (hother : Method.IsAt entries (further, position) other)
    (hsame : outer ++ index :: rest = further ++ position :: others) :
    outer = further ∧ index = position := by
  -- if one trail goes on behind the other, it leads through the method there
  rcases List.append_eq_append_iff.mp hsame with ⟨between, rfl, hbetween⟩ | ⟨between, rfl, hbetween⟩
  · cases between with
    | nil => exact ⟨(List.append_nil _).symm, (List.cons.inj hbetween).1⟩
    | cons first behind =>
        obtain ⟨rfl, -⟩ := List.cons.inj hbetween
        cases hother with
        | declared hresource => exact absurd hresource hat.not_through
  · cases between with
    | nil => exact ⟨List.append_nil _, (List.cons.inj hbetween).1.symm⟩
    | cons first behind =>
        obtain ⟨rfl, -⟩ := List.cons.inj hbetween
        cases hat with
        | declared hresource => exact absurd hresource hother.not_through

/-- The methods of a resource are its entries with the key of a method. -/
theorem Resource.lists_methods (resource : Resource) :
    Lists (· < · : Nat → Nat → Prop)
      (fun index method => ∃ key node, (resource.node.entries?.getD [])[index]? = some (key, node) ∧
        Key.isMethod key.text = true ∧ method = { resource := resource.key, key, node })
      resource.methods := by
  refine (((Lists.of_list _).filter _).map _).congr fun index method => ?_
  constructor
  · rintro ⟨⟨key, node⟩, ⟨hentry, hkey⟩, rfl⟩
    exact ⟨key, node, hentry, hkey, rfl⟩
  · rintro ⟨key, node, hentry, hkey, rfl⟩
    exact ⟨(key, node), ⟨hentry, hkey⟩, rfl⟩

namespace Document

variable (document : Document)

theorem lists_resources :
    Lists Trail.Precedes (Resource.IsAt document.root) document.resources :=
  Resource.lists_ofEntries document.root

theorem lists_methods :
    Lists (Prod.Lex Trail.Precedes (· < · : Nat → Nat → Prop)) (Method.IsAt document.root)
      document.methods := by
  refine (document.lists_resources.flatMap
    (fun trail resource _ => resource.lists_methods.readdress (trail, ·) fun _ _ hindex =>
      .right trail hindex) ?_).congr fun address method => ?_
  · rintro first resource second other - - hprecedes _ _ _ _ ⟨_, -, rfl⟩ ⟨_, -, rfl⟩
    exact .left _ _ hprecedes
  · constructor
    · rintro ⟨trail, resource, hresource, index, ⟨key, node, hentry, hkey, rfl⟩, rfl⟩
      obtain ⟨inner, hinner, hentry⟩ := Outline.getElem?_entries.mp hentry
      exact .declared hresource hinner hentry hkey
    · rintro ⟨hresource, hinner, hentry, hkey⟩
      have hentry := Outline.getElem?_entries.mpr ⟨_, hinner, hentry⟩
      exact ⟨_, _, hresource, _, ⟨_, _, hentry, hkey, rfl⟩, rfl⟩

/-- The resources of a document are the entries to which trails through resources lead: each
once, in front of those inside of it, and with these in front of the resources that follow.
The methods are the entries of these resources with the key of a method: each once, resource
by resource. -/
theorem resources_listed :
    Lists Trail.Precedes (Resource.IsAt document.root) document.resources ∧
      Lists (Prod.Lex Trail.Precedes (· < · : Nat → Nat → Prop)) (Method.IsAt document.root)
        document.methods :=
  ⟨document.lists_resources, document.lists_methods⟩

end Document

end RamlCheck
