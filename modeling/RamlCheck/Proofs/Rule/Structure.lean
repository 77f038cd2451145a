import RamlCheck.Proofs.Document.Trail
import RamlCheck.Rule.Resources

/-!
# What the rule about resources and methods finds

A tree of resources is well formed if each resource and each method is a mapping, is left
empty or comes from elsewhere, and if all keys of those that are mappings may stand there
(`ResourceTree`).  The rule has no findings if and only if the tree is well formed, and
otherwise it has one finding for each key that is out of place, at this key, and no others
(`Rule.flaws_of_resources`).

## Strategy

`ResourceFlaw` and `MethodFlaw` say what is wrong with a single resource or method, and at
which trail the key stands that is reported.  The rule looks at the resources one by one and
then at the methods, so what it finds is listed part by part.  That no key is found twice is
then a matter of trails: those of the keys of a resource that are no resources lead nowhere
else (`Resource.IsAt.isResource_of_append`).
-/

namespace RamlCheck

/-- Whether a node stands where a mapping should: it is none, nor left empty, nor does it come
from elsewhere. -/
structure Outline.IsMisfit (node : Outline) : Prop where
  mapping : node.isMapping = false
  empty : node.isEmptyValue = false
  reference : node.isReference = false

namespace Rule

variable {document : Document}

theorem mayDeclare_eq_false_iff {node : Outline} : mayDeclare node = false ↔ node.IsMisfit := by
  rw [mayDeclare, Bool.or_eq_false_iff, Bool.or_eq_false_iff]
  exact ⟨fun ⟨⟨hmapping, hempty⟩, hreference⟩ => ⟨hmapping, hempty, hreference⟩,
    fun hnode => ⟨⟨hnode.mapping, hnode.empty⟩, hnode.reference⟩⟩

theorem mayDeclare_mapping (entries : List (Label × Outline)) :
    mayDeclare (.mapping entries) = true :=
  rfl

/-! ## Flaws -/

/-- What is wrong with the resource at some trail, and the trail of the key that is wrong. -/
inductive ResourceFlaw (document : Document) (outer : Trail) (resource : Resource) :
    Trail → Finding → Prop
  | notMapping (hnode : resource.node.IsMisfit) :
      ResourceFlaw document outer resource outer
        (document.findingAt resource.key.place .error
          ("Resource '" ++ resource.key.text ++ "' must be a mapping"))
  | method {entries : List (Label × Outline)} {index : Nat} {key : Label} {node : Outline}
      (hentries : resource.node = .mapping entries) (hentry : entries[index]? = some (key, node))
      (hmethod : Key.isMethod key.text = true) (hnode : node.IsMisfit) :
      ResourceFlaw document outer resource (outer ++ [index])
        (document.findingAt key.place .error ("Method '" ++ key.text ++ "' must be a mapping"))
  | unknown {entries : List (Label × Outline)} {index : Nat} {key : Label} {node : Outline}
      (hentries : resource.node = .mapping entries) (hentry : entries[index]? = some (key, node))
      (hmethod : Key.isMethod key.text = false) (hresource : Key.isResource key.text = false)
      (hannotated : Key.isAnnotation key.text = false) (hmerge : Key.isMerge key.text = false)
      (hproperty : key.text ∉ resourceKeys) :
      ResourceFlaw document outer resource (outer ++ [index])
        (document.findingAt key.place .warning
          ("Unknown property '" ++ key.text ++ "' in resource '" ++ resource.key.text ++ "'"))

/-- What is wrong with the method that a resource at some trail has at some index, and the
trail of the key that is wrong. -/
inductive MethodFlaw (document : Document) (outer : Trail) (index : Nat) (method : Method) :
    Trail → Finding → Prop
  | unknown {entries : List (Label × Outline)} {position : Nat} {key : Label} {node : Outline}
      (hentries : method.node = .mapping entries)
      (hentry : entries[position]? = some (key, node))
      (hannotated : Key.isAnnotation key.text = false) (hmerge : Key.isMerge key.text = false)
      (hproperty : key.text ∉ methodKeys) :
      MethodFlaw document outer index method (outer ++ [index, position])
        (document.findingAt key.place .warning
          ("Unknown property '" ++ key.text ++ "' in method '" ++ method.key.text ++ " "
            ++ method.resource.text ++ "'"))

/-- What is wrong with the resources of a document and their methods, and the trails of the
keys that are wrong. -/
inductive StructureFlaw (document : Document) (trail : Trail) (finding : Finding) : Prop
  | ofResource {outer : Trail} {resource : Resource}
      (hresource : Resource.IsAt document.root outer resource)
      (hflaw : ResourceFlaw document outer resource trail finding)
  | ofMethod {outer : Trail} {index : Nat} {method : Method}
      (hmethod : Method.IsAt document.root (outer, index) method)
      (hflaw : MethodFlaw document outer index method trail finding)

/-! ## A single resource or method -/

theorem isResourceKey_eq_false_iff {key : String} :
    isResourceKey key = false ↔ Key.isResource key = false ∧ Key.isAnnotation key = false ∧
      Key.isMerge key = false ∧ key ∉ resourceKeys := by
  simp only [isResourceKey, Bool.or_eq_false_iff, List.contains_eq_mem, decide_eq_false_iff_not,
    and_assoc]

theorem isMethodKey_eq_false_iff {key : String} :
    isMethodKey key = false ↔
      Key.isAnnotation key = false ∧ Key.isMerge key = false ∧ key ∉ methodKeys := by
  simp only [isMethodKey, Bool.or_eq_false_iff, List.contains_eq_mem, decide_eq_false_iff_not,
    and_assoc]

/-- An entry of a resource is found at most once: as a method that is no mapping or as a key
that is not known. -/
theorem mem_resourceEntryFindings {resource key : Label} {node : Outline} {finding : Finding} :
    finding ∈ resourceEntryFindings document resource (key, node) ↔
      (Key.isMethod key.text = true ∧ node.IsMisfit ∧ finding = notMapping document "Method" key) ∨
        (Key.isMethod key.text = false ∧ isResourceKey key.text = false ∧
          finding = document.findingAt key.place .warning
            ("Unknown property '" ++ key.text ++ "' in resource '" ++ resource.text ++ "'")) := by
  rw [← mayDeclare_eq_false_iff, resourceEntryFindings]
  cases hmethod : Key.isMethod key.text <;> cases hdeclare : mayDeclare node <;>
    cases hkey : isResourceKey key.text <;> simp

theorem length_resourceEntryFindings (document : Document) (resource : Label)
    (entry : Label × Outline) : (resourceEntryFindings document resource entry).length ≤ 1 := by
  rw [resourceEntryFindings]
  split_ifs <;> simp

theorem lists_resourceFindings (outer : Trail) (resource : Resource) :
    Lists (· ≠ ·) (ResourceFlaw document outer resource) (resourceFindings document resource) := by
  rw [resourceFindings]
  split
  · next hdeclare =>
    refine ((Lists.of_list _).flatMap_of_length_le_one (outer ++ [·])
      (length_resourceEntryFindings document resource.key) ?_).congr fun trail finding => ?_
    · intro first second hindex
      exact (Trail.Precedes.sibling outer hindex [] []).ne
    · constructor
      · rintro ⟨index, ⟨key, node⟩, hentry, rfl, hfinding⟩
        -- an entry has a flaw for each of the two things that can be wrong with it
        obtain ⟨entries, hentries, hentry⟩ := Outline.getElem?_entries.mp hentry
        rcases mem_resourceEntryFindings.mp hfinding with
          ⟨hmethod, hnode, rfl⟩ | ⟨hmethod, hkey, rfl⟩
        · exact .method hentries hentry hmethod hnode
        · obtain ⟨hresource, hannotated, hmerge, hproperty⟩ := isResourceKey_eq_false_iff.mp hkey
          exact .unknown hentries hentry hmethod hresource hannotated hmerge hproperty
      · rintro (hnode | ⟨hentries, hentry, hmethod, hnode⟩ |
          ⟨hentries, hentry, hmethod, hresource, hannotated, hmerge, hproperty⟩)
        · rw [mayDeclare_eq_false_iff.mpr hnode] at hdeclare
          contradiction
        · exact ⟨_, _, Outline.getElem?_entries.mpr ⟨_, hentries, hentry⟩, rfl,
            mem_resourceEntryFindings.mpr (.inl ⟨hmethod, hnode, rfl⟩)⟩
        · have hkey := isResourceKey_eq_false_iff.mpr ⟨hresource, hannotated, hmerge, hproperty⟩
          exact ⟨_, _, Outline.getElem?_entries.mpr ⟨_, hentries, hentry⟩, rfl,
            mem_resourceEntryFindings.mpr (.inr ⟨hmethod, hkey, rfl⟩)⟩
  · next hdeclare =>
    -- such a value declares nothing, and this is its only flaw
    have hnode := mayDeclare_eq_false_iff.mp (Bool.eq_false_iff.mpr hdeclare)
    refine (Lists.singleton outer _).congr fun trail finding => ?_
    constructor
    · rintro ⟨rfl, rfl⟩
      exact .notMapping hnode
    · rintro (- | ⟨hentries, -⟩ | ⟨hentries, -⟩)
      · exact ⟨rfl, rfl⟩
      · exact absurd hnode.mapping (by simp [hentries, Outline.isMapping, Outline.entries?])
      · exact absurd hnode.mapping (by simp [hentries, Outline.isMapping, Outline.entries?])

theorem lists_methodFindings (outer : Trail) (index : Nat) (method : Method) :
    Lists (· ≠ ·) (MethodFlaw document outer index method) (methodFindings document method) := by
  refine ((((Lists.of_list _).filter _).map _).readdress
    (fun position => outer ++ [index, position]) ?_).congr fun trail finding => ?_
  · intro first second hposition
    exact ((Trail.Precedes.sibling [index] hposition [] []).behind outer).ne
  · constructor
    · rintro ⟨position, ⟨⟨key, node⟩, ⟨hentry, hkey⟩, rfl⟩, rfl⟩
      obtain ⟨entries, hentries, hentry⟩ := Outline.getElem?_entries.mp hentry
      obtain ⟨hannotated, hmerge, hproperty⟩ :=
        isMethodKey_eq_false_iff.mp (by simpa using hkey)
      exact .unknown hentries hentry hannotated hmerge hproperty
    · rintro ⟨hentries, hentry, hannotated, hmerge, hproperty⟩
      have hkey := isMethodKey_eq_false_iff.mpr ⟨hannotated, hmerge, hproperty⟩
      exact ⟨_, ⟨(_, _), ⟨Outline.getElem?_entries.mpr ⟨_, hentries, hentry⟩, by simpa using hkey⟩,
        rfl⟩, rfl⟩

/-! ## The whole document -/

/-- A resource is reported at its own trail or at an entry of its own that is no resource. -/
theorem ResourceFlaw.trail_cases {outer trail : Trail} {resource : Resource} {finding : Finding}
    (hflaw : ResourceFlaw document outer resource trail finding) :
    trail = outer ∨ ∃ entries index key node, trail = outer ++ [index] ∧
      resource.node = .mapping entries ∧ entries[index]? = some (key, node) ∧
      Key.isResource key.text = false := by
  cases hflaw with
  | notMapping => exact .inl rfl
  | method hentries hentry hmethod =>
      refine .inr ⟨_, _, _, _, rfl, hentries, hentry, ?_⟩
      exact Bool.eq_false_iff.mpr fun hresource =>
        absurd hmethod (by simp [Key.not_isMethod_of_isResource hresource])
  | unknown hentries hentry _ hresource =>
      exact .inr ⟨_, _, _, _, rfl, hentries, hentry, hresource⟩

/-- Of two resources, no key is reported twice. -/
theorem ResourceFlaw.trail_ne {outer further first second : Trail} {resource other : Resource}
    {finding last : Finding} (hresource : Resource.IsAt document.root outer resource)
    (hother : Resource.IsAt document.root further other) (hne : outer ≠ further)
    (hfirst : ResourceFlaw document outer resource first finding)
    (hsecond : ResourceFlaw document further other second last) : first ≠ second := by
  rintro rfl
  -- where an entry of one is the other resource, its key is that of a resource
  rcases hfirst.trail_cases with rfl | ⟨_, index, _, _, rfl, hentries, hentry, hkey⟩ <;>
    rcases hsecond.trail_cases with hsame | ⟨_, position, _, _, hsame, hinner, hin, hno⟩
  · exact hne hsame
  · subst hsame
    exact absurd (hother.isResource_of_append hinner hin hresource) (by simp [hno])
  · subst hsame
    exact absurd (hresource.isResource_of_append hentries hentry hother) (by simp [hkey])
  · exact hne (List.append_inj' hsame rfl).1

theorem MethodFlaw.exists_position {outer trail : Trail} {index : Nat} {method : Method}
    {finding : Finding} (hflaw : MethodFlaw document outer index method trail finding) :
    ∃ position, trail = outer ++ [index, position] := by
  cases hflaw
  exact ⟨_, rfl⟩

/-- No key of a method is reported with a resource. -/
theorem MethodFlaw.trail_ne {outer further first second : Trail} {index : Nat} {method : Method}
    {resource : Resource} {finding last : Finding}
    (hresource : Resource.IsAt document.root outer resource)
    (hmethod : Method.IsAt document.root (further, index) method)
    (hfirst : ResourceFlaw document outer resource first finding)
    (hsecond : MethodFlaw document further index method second last) : first ≠ second := by
  rintro rfl
  obtain ⟨position, hsame⟩ := hsecond.exists_position
  rcases hfirst.trail_cases with rfl | ⟨_, _, _, _, rfl, -⟩
  · subst hsame
    exact hmethod.not_through hresource
  · rw [List.append_cons further index [position]] at hsame
    obtain ⟨rfl, -⟩ := List.append_inj' hsame rfl
    exact hmethod.not_through hresource

theorem lists_flaws_of_resources (document : Document) :
    Lists (· ≠ ·)
      (fun trail finding => ∃ outer resource, Resource.IsAt document.root outer resource ∧
        ResourceFlaw document outer resource trail finding)
      (document.resources.flatMap (resourceFindings document)) := by
  refine document.lists_resources.flatMap
    (fun outer resource _ => lists_resourceFindings outer resource) ?_
  intro outer resource further other hresource hother hprecedes _ _ _ _ hfirst hsecond
  exact hfirst.trail_ne hresource hother hprecedes.ne hsecond

theorem lists_flaws_of_methods (document : Document) :
    Lists (· ≠ ·)
      (fun trail finding => ∃ address method, Method.IsAt document.root address method ∧
        MethodFlaw document address.1 address.2 method trail finding)
      (document.methods.flatMap (methodFindings document)) := by
  refine document.lists_methods.flatMap
    (fun address method _ => lists_methodFindings address.1 address.2 method) ?_
  rintro ⟨outer, index⟩ _ ⟨further, other⟩ _ hmethod hother hbefore _ _ _ _ hfirst hsecond rfl
  obtain ⟨position, hfirst⟩ := hfirst.exists_position
  obtain ⟨place, hsecond⟩ := hsecond.exists_position
  obtain ⟨rfl, rfl⟩ := hmethod.eq_of_append hother (hfirst.symm.trans hsecond)
  exact irrefl _ hbefore

/-- The rule finds what is wrong with resources and methods, once for each key that is out of
place. -/
theorem lists_structureFlaws (files : FileSystem) (document : Document) :
    Lists (· ≠ ·) (StructureFlaw document) (resources.check files document) := by
  refine ((lists_flaws_of_resources document).append (lists_flaws_of_methods document) ?_).congr
    fun trail finding => ?_
  · rintro _ _ _ _ ⟨_, _, hresource, hfirst⟩ ⟨⟨_, _⟩, _, hmethod, hsecond⟩
    exact hsecond.trail_ne hresource hmethod hfirst
  · constructor
    · rintro (⟨_, _, hresource, hflaw⟩ | ⟨⟨_, _⟩, _, hmethod, hflaw⟩)
      · exact .ofResource hresource hflaw
      · exact .ofMethod hmethod hflaw
    · rintro (⟨hresource, hflaw⟩ | ⟨hmethod, hflaw⟩)
      · exact .inl ⟨_, _, hresource, hflaw⟩
      · exact .inr ⟨_, _, hmethod, hflaw⟩

/-! ## Well-formed trees -/

/-- Whether a node is well formed as a method. -/
inductive MethodTree : Outline → Prop
  | empty {node : Outline} (hempty : node.isEmptyValue = true) : MethodTree node
  | reference {node : Outline} (hreference : node.isReference = true) : MethodTree node
  | mapping {entries : List (Label × Outline)}
      (hkeys : ∀ entry ∈ entries, isMethodKey entry.1.text = true) : MethodTree (.mapping entries)

/-- Whether a node is well formed as a resource, with all that is inside of it. -/
inductive ResourceTree : Outline → Prop
  | empty {node : Outline} (hempty : node.isEmptyValue = true) : ResourceTree node
  | reference {node : Outline} (hreference : node.isReference = true) : ResourceTree node
  | mapping {entries : List (Label × Outline)}
      (hkeys : ∀ entry ∈ entries,
        Key.isMethod entry.1.text = true ∨ isResourceKey entry.1.text = true)
      (hmethods : ∀ entry ∈ entries, Key.isMethod entry.1.text = true → MethodTree entry.2)
      (hresources : ∀ entry ∈ entries, Key.isResource entry.1.text = true → ResourceTree entry.2) :
      ResourceTree (.mapping entries)

theorem methodTree_mapping {entries : List (Label × Outline)} :
    MethodTree (.mapping entries) ↔ ∀ entry ∈ entries, isMethodKey entry.1.text = true := by
  constructor
  · rintro (hempty | hreference | hkeys)
    · exact absurd hempty (by simp [Outline.isEmptyValue, Outline.label?])
    · exact absurd hreference (by simp [Outline.isReference, Outline.label?])
    · exact hkeys
  · exact .mapping

theorem resourceTree_mapping {entries : List (Label × Outline)} :
    ResourceTree (.mapping entries) ↔
      (∀ entry ∈ entries, Key.isMethod entry.1.text = true ∨ isResourceKey entry.1.text = true) ∧
      (∀ entry ∈ entries, Key.isMethod entry.1.text = true → MethodTree entry.2) ∧
      ∀ entry ∈ entries, Key.isResource entry.1.text = true → ResourceTree entry.2 := by
  constructor
  · rintro (hempty | hreference | ⟨hkeys, hmethods, hresources⟩)
    · exact absurd hempty (by simp [Outline.isEmptyValue, Outline.label?])
    · exact absurd hreference (by simp [Outline.isReference, Outline.label?])
    · exact ⟨hkeys, hmethods, hresources⟩
  · rintro ⟨hkeys, hmethods, hresources⟩
    exact .mapping hkeys hmethods hresources

/-- What is no mapping is well formed as a method if it may be declared, and so as a
resource. -/
theorem trees_of_no_mapping {node : Outline} (hnode : node.isMapping = false) :
    (MethodTree node ↔ mayDeclare node = true) ∧ (ResourceTree node ↔ mayDeclare node = true) := by
  rw [mayDeclare, hnode, Bool.false_or, Bool.or_eq_true]
  refine ⟨⟨?_, ?_⟩, ⟨?_, ?_⟩⟩
  · rintro (hempty | hreference | -)
    · exact .inl hempty
    · exact .inr hreference
    · exact absurd hnode (by simp [Outline.isMapping, Outline.entries?])
  · exact fun hcases => hcases.elim .empty .reference
  · rintro (hempty | hreference | -)
    · exact .inl hempty
    · exact .inr hreference
    · exact absurd hnode (by simp [Outline.isMapping, Outline.entries?])
  · exact fun hcases => hcases.elim .empty .reference

/-- Whether the rule finds nothing wrong with a resource and its own methods. -/
def IsSound (document : Document) (resource : Resource) : Prop :=
  resourceFindings document resource = [] ∧
    ∀ method ∈ resource.methods, methodFindings document method = []

theorem check_resources_eq_nil_iff (files : FileSystem) (document : Document) :
    resources.check files document = [] ↔
      ∀ resource ∈ document.resources, IsSound document resource := by
  simp only [resources, List.append_eq_nil_iff, List.flatMap_eq_nil_iff, Document.methods,
    List.mem_flatMap, IsSound]
  grind

/-- Nothing is found in a method that may be declared if and only if it is well formed. -/
theorem methodFindings_eq_nil_iff {resource key : Label} {node : Outline} :
    mayDeclare node = true ∧ methodFindings document { resource, key, node } = [] ↔
      MethodTree node := by
  rw [methodFindings, List.map_eq_nil_iff, List.filter_eq_nil_iff]
  cases node with
  | mapping entries => simp [methodTree_mapping, mayDeclare_mapping, Outline.entries?]
  | scalar label =>
      have hnode : (Outline.scalar label).isMapping = false := rfl
      simp [(trees_of_no_mapping hnode).1, Outline.entries?]
  | sequence items =>
      have hnode : (Outline.sequence items).isMapping = false := rfl
      simp [(trees_of_no_mapping hnode).1, Outline.entries?]

theorem resourceEntryFindings_eq_nil_iff {resource : Label} {entry : Label × Outline} :
    resourceEntryFindings document resource entry = [] ↔
      (Key.isMethod entry.1.text = true ∨ isResourceKey entry.1.text = true) ∧
        (Key.isMethod entry.1.text = true → mayDeclare entry.2 = true) := by
  rw [resourceEntryFindings]
  split_ifs <;> simp_all

/-- Nothing is found in a mapping if and only if its keys may stand there and its methods are
well formed. -/
theorem isSound_mapping {key : Label} {entries : List (Label × Outline)} :
    IsSound document { key, node := .mapping entries } ↔
      (∀ entry ∈ entries, Key.isMethod entry.1.text = true ∨ isResourceKey entry.1.text = true) ∧
        ∀ entry ∈ entries, Key.isMethod entry.1.text = true → MethodTree entry.2 := by
  have hmethods : (∀ method ∈ Resource.methods { key, node := .mapping entries },
      methodFindings document method = []) ↔
        ∀ entry ∈ entries, Key.isMethod entry.1.text = true →
          methodFindings document { resource := key, key := entry.1, node := entry.2 } = [] := by
    simp only [Resource.methods, Outline.entries?, Option.getD_some, List.forall_mem_map,
      List.mem_filter, and_imp]
  have hentries : resourceFindings document { key, node := .mapping entries } = [] ↔
      ∀ entry ∈ entries, resourceEntryFindings document key entry = [] := by
    simp [resourceFindings, mayDeclare_mapping, Outline.entries?]
  rw [IsSound, hentries, hmethods]
  simp only [resourceEntryFindings_eq_nil_iff]
  constructor
  · rintro ⟨hkeys, hfindings⟩
    exact ⟨fun entry hentry => (hkeys entry hentry).1, fun entry hentry hmethod =>
      methodFindings_eq_nil_iff.mp
        ⟨(hkeys entry hentry).2 hmethod, hfindings entry hentry hmethod⟩⟩
  · rintro ⟨hkeys, htrees⟩
    have hsound : ∀ entry ∈ entries, Key.isMethod entry.1.text = true →
        mayDeclare entry.2 = true ∧
          methodFindings document { resource := key, key := entry.1, node := entry.2 } = [] :=
      fun entry hentry hmethod => methodFindings_eq_nil_iff.mpr (htrees entry hentry hmethod)
    exact ⟨fun entry hentry => ⟨hkeys entry hentry, fun hmethod => (hsound entry hentry hmethod).1⟩,
      fun entry hentry hmethod => (hsound entry hentry hmethod).2⟩

theorem isSound_of_no_mapping {key : Label} {node : Outline} (hnode : node.isMapping = false) :
    IsSound document { key, node } ↔ mayDeclare node = true := by
  have hentries : node.entries? = none := by
    cases node with
    | mapping entries => exact absurd hnode (by simp [Outline.isMapping, Outline.entries?])
    | scalar label => rfl
    | sequence items => rfl
  simp [IsSound, resourceFindings, Resource.methods, hentries]

mutual

theorem isSound_within_iff (key : Label) : ∀ node : Outline,
    (IsSound document { key, node } ∧
      ∀ resource ∈ Resource.within node, IsSound document resource) ↔ ResourceTree node
  | .mapping entries => by
      rw [Resource.within, isSound_mapping, forall_isSound_iff entries, resourceTree_mapping,
        and_assoc]
  | .scalar label => by
      rw [isSound_of_no_mapping rfl, (trees_of_no_mapping rfl).2]
      simp [Resource.within]
  | .sequence items => by
      rw [isSound_of_no_mapping rfl, (trees_of_no_mapping rfl).2]
      simp [Resource.within]

/-- Nothing is found in the resources of some entries if and only if they are well formed. -/
theorem forall_isSound_iff : ∀ entries : List (Label × Outline),
    (∀ resource ∈ Resource.ofEntries entries, IsSound document resource) ↔
      ∀ entry ∈ entries, Key.isResource entry.1.text = true → ResourceTree entry.2
  | [] => by simp
  | (key, node) :: rest => by
      rw [Resource.ofEntries_cons, List.forall_mem_cons, ← forall_isSound_iff rest]
      split
      · next hkey =>
        rw [List.forall_mem_append, List.forall_mem_cons, isSound_within_iff key node]
        simp [hkey]
      · next hkey => simp [hkey]

end

/-- The rule about resources and methods finds nothing if and only if each resource at the
root is well formed.  Otherwise it finds what is wrong with each resource and each method,
once for each key that is out of place, at this key, and nothing else. -/
theorem flaws_of_resources (files : FileSystem) (document : Document) :
    Lists (· ≠ ·) (StructureFlaw document) (resources.check files document) ∧
      (resources.check files document = [] ↔
        ∀ entry ∈ document.root, Key.isResource entry.1.text = true → ResourceTree entry.2) := by
  refine ⟨lists_structureFlaws files document, ?_⟩
  rw [check_resources_eq_nil_iff, ← forall_isSound_iff]
  rfl

end Rule

end RamlCheck
