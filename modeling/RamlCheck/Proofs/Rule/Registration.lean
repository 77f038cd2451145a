import Mathlib.Data.Finset.Card
import Mathlib.Data.List.Infix
import RamlCheck.Rule.Registry

/-!
# What a registry holds

A registry is filled by registering rules one after another.  `Registers` goes with it
through any history of registrations: it starts without rules or with those of the checker.

The names of its rules then are those that were ever registered, each once and in the order
in which they came first, and the rule under a name is the one that came last
(`registered`).

## Strategy

`Records` says this of one registry by its history.  Registering a rule keeps it
(`Records.register`): either the name is known, and the rule replaces the one that has it,
or it goes to the end, behind all names that came before.  That no name is held twice and
how many rules there are follows from the order of the names.
-/

namespace RamlCheck.Registry

/-- The names of the rules of a registry, in order. -/
def ids (registry : Registry) : List String :=
  registry.rules.map (·.id)

/-- The registries that registering leads to, each with all rules that have been
registered, the first one first. -/
inductive Registers : List Rule → Registry → Prop
  | empty : Registers [] .empty
  | builtin :
      Registers [Rule.title, Rule.rootKeys, Rule.baseUri, Rule.resources, Rule.responses,
        Rule.includes] .builtin
  | register {history : List Rule} {registry : Registry} (rule : Rule)
      (hregisters : Registers history registry) :
      Registers (history ++ [rule]) (registry.register rule)

/-- What a registry holds behind some registrations. -/
structure Records (history : List Rule) (registry : Registry) : Prop where
  /-- It has the names that were ever registered. -/
  mem_ids_iff : ∀ id, id ∈ registry.ids ↔ id ∈ history.map (·.id)
  /-- The names stand in the order in which they were registered first. -/
  order : registry.ids.Pairwise fun first second =>
    (history.map (·.id)).idxOf first < (history.map (·.id)).idxOf second
  /-- Behind the registration of a rule that it holds, its name was not registered again. -/
  last : ∀ rule ∈ registry.rules, ∃ before after,
    history = before ++ rule :: after ∧ rule.id ∉ after.map (·.id)

variable {history : List Rule} {registry : Registry} {rules : List Rule} {rule other : Rule}

/-! ## Registering one rule -/

theorem ids_register (registry : Registry) (rule : Rule) :
    (registry.register rule).ids =
      if rule.id ∈ registry.ids then registry.ids else registry.ids ++ [rule.id] :=
  map_id_insert rule registry.rules

/-- A rule that replaces one leaves the others in place. -/
theorem mem_insert_cases (hnodup : (rules.map (·.id)).Nodup) (hother : other ∈ insert rule rules) :
    other = rule ∨ other ∈ rules ∧ other.id ≠ rule.id := by
  induction rules with
  | nil => exact .inl (List.mem_singleton.mp hother)
  | cons first rest ih =>
      obtain ⟨hfirst, hrest⟩ := List.nodup_cons.mp hnodup
      rw [insert] at hother
      split at hother
      · next hsame =>
        rcases List.mem_cons.mp hother with rfl | hother
        · exact .inl rfl
        · -- ids are distinct, so no rule behind has the id of the first one
          have hmem : other.id ∈ rest.map (·.id) := List.mem_map_of_mem hother
          refine .inr ⟨List.mem_cons_of_mem _ hother, fun heq => hfirst ?_⟩
          rwa [heq, ← hsame] at hmem
      · next hdiffer =>
        rcases List.mem_cons.mp hother with rfl | hother
        · exact .inr ⟨List.mem_cons_self, hdiffer⟩
        · exact (ih hrest hother).imp_right fun hmem => ⟨List.mem_cons_of_mem _ hmem.1, hmem.2⟩

theorem Records.nodup (hrecords : Records history registry) : registry.ids.Nodup :=
  hrecords.order.imp fun hlt heq => by simp [heq] at hlt

/-- There are as many rules as names that were ever registered. -/
theorem Records.size_eq (hrecords : Records history registry) :
    registry.size = (history.map (·.id)).toFinset.card := by
  have hsame : (history.map (·.id)).toFinset = registry.ids.toFinset := by
    ext id
    simp only [List.mem_toFinset, hrecords.mem_ids_iff]
  rw [hsame, List.toFinset_card_of_nodup hrecords.nodup, ids, List.length_map, size]

theorem records_empty : Records [] .empty where
  mem_ids_iff _ := Iff.rfl
  order := .nil
  last _ hrule := absurd hrule List.not_mem_nil

/-- Where a name was registered first does not change with what comes behind. -/
theorem idxOf_lt_idxOf_append {names : List String} {first second : String}
    (hlt : names.idxOf first < names.idxOf second) (name : String) :
    (names ++ [name]).idxOf first < (names ++ [name]).idxOf second := by
  have hfirst : first ∈ names :=
    List.idxOf_lt_length_iff.mp (Nat.lt_of_lt_of_le hlt List.idxOf_le_length)
  rw [List.idxOf_append_of_mem hfirst]
  refine Nat.lt_of_lt_of_le hlt ?_
  by_cases hsecond : second ∈ names
  · rw [List.idxOf_append_of_mem hsecond]
  · rw [List.idxOf_append_of_notMem hsecond]
    exact Nat.le_trans List.idxOf_le_length (Nat.le_add_right _ _)

theorem Records.register (hrecords : Records history registry) (rule : Rule) :
    Records (history ++ [rule]) (registry.register rule) where
  mem_ids_iff name := by
    rw [ids_register, List.map_append, List.mem_append, ← hrecords.mem_ids_iff]
    split
    · -- the id was known before, so the list of the ids is what it was
      next hknown =>
      refine ⟨.inl, fun hname => hname.elim id fun hlast => ?_⟩
      rwa [List.mem_singleton.mp hlast]
    · exact List.mem_append
  order := by
    rw [ids_register, List.map_append]
    have hkept := hrecords.order.imp fun hlt => idxOf_lt_idxOf_append hlt rule.id
    split
    · exact hkept
    · -- a new id has its first registration behind those of all others
      next hnew =>
      rw [hrecords.mem_ids_iff] at hnew
      refine List.pairwise_append.mpr ⟨hkept, List.pairwise_singleton _ _, ?_⟩
      intro first hfirst second hsecond
      rw [hrecords.mem_ids_iff] at hfirst
      rw [List.mem_singleton.mp hsecond, List.map_singleton, List.idxOf_append_of_mem hfirst,
        List.idxOf_append_of_notMem hnew]
      exact Nat.lt_of_lt_of_le (List.idxOf_lt_length_iff.mpr hfirst) (Nat.le_add_right _ _)
  last other hother := by
    rcases mem_insert_cases hrecords.nodup hother with rfl | ⟨hother, hdiffer⟩
    · -- the new rule is the last one of its id
      exact ⟨history, [], rfl, List.not_mem_nil⟩
    · obtain ⟨before, after, rfl, hafter⟩ := hrecords.last other hother
      refine ⟨before, after ++ [rule], by simp, ?_⟩
      rw [List.map_append, List.mem_append, not_or]
      exact ⟨hafter, fun hlast => hdiffer (List.mem_singleton.mp hlast)⟩

/-! ## Any history of registrations -/

theorem Records.registerAll (hrecords : Records history registry) (rules : List Rule) :
    Records (history ++ rules) (rules.foldl Registry.register registry) := by
  induction rules generalizing history registry with
  | nil => simpa using hrecords
  | cons rule rest ih =>
      have hrest := ih (hrecords.register rule)
      rwa [List.append_assoc, List.singleton_append] at hrest

theorem Registers.records (hregisters : Registers history registry) : Records history registry := by
  induction hregisters with
  | empty => exact records_empty
  | builtin => exact records_empty.registerAll _
  | register rule _ ih => exact ih.register rule

/-- Rules registered one after another, on no rules, on those of the checker or on what such
registrations have left: no name is held twice, the names are those ever registered in the
order in which each came first, the rule under a name is the one that came last, and there
are as many rules as different names. -/
theorem registered (hregisters : Registers history registry) (rules : List Rule) :
    (rules.foldl register registry).ids.Nodup ∧
      Records (history ++ rules) (rules.foldl register registry) ∧
        (rules.foldl register registry).size =
          ((history ++ rules).map (·.id)).toFinset.card := by
  have hrecords := hregisters.records.registerAll rules
  exact ⟨hrecords.nodup, hrecords, hrecords.size_eq⟩

/-- A rule under the name of the first rule of the checker replaces it in its place, and a
rule under a new name goes behind the last one. -/
theorem registered_behind_builtin :
    let other : Rule := { Rule.responses with id := "title-required" }
    let later : Rule := { Rule.title with id := "later" }
    let registry := [other, later].foldl register builtin
    registry.ids =
        ["title-required", "known-root-keys", "base-uri-version", "resource-structure",
          "response-codes", "includes", "later"] ∧
      registry.rules.head? = some other ∧ registry.ids.Nodup ∧ registry.size = 7 :=
  ⟨rfl, rfl, (registered .builtin _).1, (registered .builtin _).2.2.trans (by decide)⟩

end RamlCheck.Registry
