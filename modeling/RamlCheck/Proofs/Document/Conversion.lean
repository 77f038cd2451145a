import Mathlib.Data.List.Induction
import Mathlib.Data.String.Basic
import RamlCheck.Document.Payload

/-!
# How values become JSON

A value becomes JSON part by part (`Payload.ofValue_structural`): a sequence keeps its
items in their order, a mapping becomes an object with one member for each text that a key
of it reads as, where the last of several entries counts, and tags leave no trace.  So what
stands at the end of a path in the value stands at the end of the same path in the payload
(`Payload.at?_ofValue`).  A document that a reference names is turned into JSON with all
its strings as they are, and what is found along a path in it is found in the payload behind
the reference.

## Strategy

The entries of a mapping are put in one by one, so what they come to is shown by induction
from the last one: it covers an earlier one of its name and leaves the others alone
(`Json.lookup_insertMember`).  Along a path, a step into a value and a step into its JSON
lead to parts that belong together (`Payload.child?_ofValue`), and a path is an induction
over its steps.
-/

namespace RamlCheck

open Yaml (Value)

/-! ## Members of objects -/

namespace Json

/-- The names of some members. -/
def names (members : List (String × Json)) : List String :=
  members.map Prod.fst

variable {name other : String} {value : Json} {members : List (String × Json)}

/-- Members in which no name stands behind itself or a greater one. -/
def Ordered (members : List (String × Json)) : Prop :=
  (names members).Pairwise (· < ·)

theorem lookup_insertMember_of_ne (hne : other ≠ name) :
    (insertMember name value members).lookup other = members.lookup other := by
  have hfirst : (other == name) = false := by simpa using hne
  induction members with
  | nil => simp [insertMember, List.lookup_cons, hfirst]
  | cons member rest ih =>
      obtain ⟨key, old⟩ := member
      rw [insertMember]
      split
      · next heq => simp [List.lookup_cons, ← heq, hfirst]
      · split
        · rw [List.lookup_cons, hfirst]
        · rw [List.lookup_cons, List.lookup_cons, ih]

/-- A member that is put in is found under its name, and the others stay. -/
theorem lookup_insertMember :
    (insertMember name value members).lookup other =
      if name = other then some value else members.lookup other := by
  split
  · next heq => rw [← heq, lookup_insertMember_self]
  · next hne => rw [lookup_insertMember_of_ne (Ne.symm hne)]

theorem mem_names_insertMember :
    other ∈ names (insertMember name value members) ↔ other = name ∨ other ∈ names members := by
  induction members with
  | nil => simp [names, insertMember]
  | cons member rest ih =>
      obtain ⟨key, old⟩ := member
      rw [insertMember]
      split
      · next heq => simp [names, ← heq]
      · split
        · simp [names]
        · simp only [names, List.map_cons, List.mem_cons] at ih ⊢
          rw [ih]
          tauto

/-- Putting a member in keeps the order of names. -/
theorem Ordered.insertMember (hordered : Ordered members) :
    Ordered (insertMember name value members) := by
  induction members with
  | nil => simp [Ordered, names]
  | cons member rest ih =>
      obtain ⟨key, old⟩ := member
      obtain ⟨hbehind, hrest⟩ := List.pairwise_cons.mp hordered
      rw [Json.insertMember]
      split
      · next heq => exact heq ▸ hordered
      · next hne =>
        split
        · -- the new member comes first
          next hlt =>
          refine List.pairwise_cons.mpr ⟨fun behind hmem => ?_, hordered⟩
          rcases List.mem_cons.mp hmem with rfl | hmem
          · exact hlt
          · exact lt_trans hlt (hbehind behind hmem)
        · -- it comes somewhere behind, and all that is there is greater already
          next hnotlt =>
          refine List.pairwise_cons.mpr ⟨fun behind hmem => ?_, ih hrest⟩
          rcases mem_names_insertMember.mp hmem with rfl | hmem
          · exact lt_of_le_of_ne (not_lt.mp hnotlt) (Ne.symm hne)
          · exact hbehind behind hmem

/-- The members that a list of entries comes to. -/
def membersOf (entries : List (String × Json)) : List (String × Json) :=
  entries.foldl (fun members entry => insertMember entry.1 entry.2 members) []

theorem ofEntries_eq (entries : List (String × Json)) :
    ofEntries entries = .object (membersOf entries) :=
  rfl

theorem membersOf_concat (entries : List (String × Json)) (entry : String × Json) :
    membersOf (entries ++ [entry]) = insertMember entry.1 entry.2 (membersOf entries) := by
  simp only [membersOf, List.foldl_append, List.foldl_cons, List.foldl_nil]

theorem ordered_membersOf (entries : List (String × Json)) : Ordered (membersOf entries) := by
  induction entries using List.reverseRecOn with
  | nil => exact .nil
  | append_singleton entries entry ih =>
      rw [membersOf_concat]
      exact ih.insertMember

theorem mem_names_membersOf (entries : List (String × Json)) :
    name ∈ names (membersOf entries) ↔ name ∈ entries.map Prod.fst := by
  induction entries using List.reverseRecOn with
  | nil => rfl
  | append_singleton entries entry ih =>
      rw [membersOf_concat, mem_names_insertMember, ih]
      simp [or_comm]

/-- Under a name stands the value of the last entry with it. -/
theorem lookup_membersOf (entries : List (String × Json)) :
    (membersOf entries).lookup name =
      (entries.reverse.find? fun entry => entry.1 = name).map Prod.snd := by
  induction entries using List.reverseRecOn with
  | nil => rfl
  | append_singleton entries entry ih =>
      rw [membersOf_concat, lookup_insertMember, ih, List.reverse_concat, List.find?_cons]
      by_cases hname : entry.1 = name <;> simp [hname]

end Json

/-! ## Paths -/

/-- A step into a value: to an item by its index or to a member by its name. -/
inductive PathStep
  | item (index : Nat)
  | member (name : String)

namespace Json

/-- What a step leads to. -/
def child? : Json → PathStep → Option Json
  | .array items, .item index => items[index]?
  | .object members, .member name => members.lookup name
  | _, _ => none

/-- What stands at the end of a path. -/
def at? (json : Json) : List PathStep → Option Json
  | [] => some json
  | step :: path => (json.child? step).bind (at? · path)

theorem at?_append (json : Json) (path rest : List PathStep) :
    json.at? (path ++ rest) = (json.at? path).bind (at? · rest) := by
  induction path generalizing json with
  | nil => rfl
  | cons step path ih =>
      rw [List.cons_append, at?, at?, Option.bind_assoc]
      congr 1
      funext part
      exact ih part

end Json

namespace Payload

/-- A value without the tags around it. -/
def bare : Value → Value
  | .tagged _ value => bare value
  | value => value

mutual

/-- A value without tags at any depth.  Keys stay as they are, since they are texts. -/
def untagged : Value → Value
  | .tagged _ value => untagged value
  | .sequence items => .sequence (untaggedItems items)
  | .mapping entries => .mapping (untaggedEntries entries)
  | value => value

/-- Items without tags. -/
def untaggedItems : List Value → List Value
  | [] => []
  | item :: rest => untagged item :: untaggedItems rest

/-- Entries whose values have no tags. -/
def untaggedEntries : List (Value × Value) → List (Value × Value)
  | [] => []
  | (key, value) :: rest => (key, untagged value) :: untaggedEntries rest

end

/-- The value of the last entry whose key reads as some text. -/
def lastOf (entries : List (Value × Value)) (name : String) : Option Value :=
  (entries.reverse.find? fun entry => keyText entry.1 = name).map Prod.snd

/-- What a step leads to, tags aside. -/
def child? : Value → PathStep → Option Value
  | .sequence items, .item index => items[index]?
  | .mapping entries, .member name => lastOf entries name
  | _, _ => none

/-- What stands at the end of a path, tags aside. -/
def at? (value : Value) : List PathStep → Option Value
  | [] => some (bare value)
  | step :: path => (child? (bare value) step).bind (at? · path)

/-! ## One value -/

variable {shown : String → Json}

theorem ofItems_eq_map (items : List Value) : ofItems shown items = items.map (ofValue shown) := by
  induction items with
  | nil => rfl
  | cons item rest ih => rw [ofItems, ih, List.map_cons]

theorem ofEntries_eq_map (entries : List (Value × Value)) :
    ofEntries shown entries =
      entries.map fun entry => (keyText entry.1, ofValue shown entry.2) := by
  induction entries with
  | nil => rfl
  | cons entry rest ih => rw [ofEntries, ih, List.map_cons]

/-- The members that the entries of a mapping become. -/
def membersOf (shown : String → Json) (entries : List (Value × Value)) : List (String × Json) :=
  Json.membersOf (ofEntries shown entries)

theorem ofValue_sequence (items : List Value) :
    ofValue shown (.sequence items) = .array (items.map (ofValue shown)) := by
  rw [ofValue, ofItems_eq_map]

theorem ofValue_mapping (entries : List (Value × Value)) :
    ofValue shown (.mapping entries) = .object (membersOf shown entries) := by
  rw [ofValue, Json.ofEntries_eq, membersOf]

theorem mem_names_membersOf (entries : List (Value × Value)) (name : String) :
    name ∈ Json.names (membersOf shown entries) ↔ ∃ entry ∈ entries, keyText entry.1 = name := by
  rw [membersOf, Json.mem_names_membersOf, ofEntries_eq_map, List.map_map, List.mem_map]
  rfl

/-- Under the text of a key stands the value of the last entry whose key reads so. -/
theorem lookup_membersOf (entries : List (Value × Value)) (name : String) :
    (membersOf shown entries).lookup name = (lastOf entries name).map (ofValue shown) := by
  rw [membersOf, Json.lookup_membersOf, ofEntries_eq_map, ← List.map_reverse, List.find?_map,
    lastOf, Option.map_map, Option.map_map]
  rfl

/-- A whole number and a string of its digits are one key, and the later entry counts. -/
example : plain (.mapping [(.number (.integer 1), .bool true), (.string "1", .bool false)]) =
    .object [("1", .bool false)] :=
  rfl

mutual

/-- Tags leave no trace, at any depth. -/
theorem ofValue_untagged : ∀ value : Value, ofValue shown (untagged value) = ofValue shown value
  | .null => rfl
  | .bool _ => rfl
  | .number _ => rfl
  | .string _ => rfl
  | .sequence items => by rw [untagged, ofValue, ofValue, ofItems_untagged items]
  | .mapping entries => by rw [untagged, ofValue, ofValue, ofEntries_untagged entries]
  | .tagged _ value => by rw [untagged, ofValue, ofValue_untagged value]

theorem ofItems_untagged : ∀ items : List Value,
    ofItems shown (untaggedItems items) = ofItems shown items
  | [] => rfl
  | item :: rest => by
      rw [untaggedItems, ofItems, ofItems, ofValue_untagged item, ofItems_untagged rest]

theorem ofEntries_untagged : ∀ entries : List (Value × Value),
    ofEntries shown (untaggedEntries entries) = ofEntries shown entries
  | [] => rfl
  | (key, value) :: rest => by
      rw [untaggedEntries, ofEntries, ofEntries, ofValue_untagged value, ofEntries_untagged rest]

end

/-! ## Along a path -/

/-- A step into the JSON of a value leads to the JSON of what it leads to in the value.  Only
what a string is shown as can have parts of its own. -/
theorem child?_ofValue {step : PathStep} : ∀ value : Value,
    (∀ text, bare value = .string text → (shown text).child? step = none) →
      (ofValue shown value).child? step = (child? (bare value) step).map (ofValue shown)
  | .null, _ => rfl
  | .bool _, _ => rfl
  | .number (.integer _), _ => rfl
  | .number (.float value), _ => by
      simp only [ofValue, ofNumber, bare]
      split <;> rfl
  | .string text, hstring => hstring text rfl
  | .sequence items, _ => by
      simp only [ofValue_sequence, bare]
      cases step with
      | item index => rw [Json.child?, child?, List.getElem?_map]
      | member name => rfl
  | .mapping entries, _ => by
      simp only [ofValue_mapping, bare]
      cases step with
      | item index => rfl
      | member name => rw [Json.child?, child?, lookup_membersOf]
  | .tagged _ value, hstring => by
      rw [ofValue, bare]
      -- a tag is dropped on both sides
      exact child?_ofValue value hstring

theorem ofValue_bare : ∀ value : Value, ofValue shown (bare value) = ofValue shown value
  | .null => rfl
  | .bool _ => rfl
  | .number _ => rfl
  | .string _ => rfl
  | .sequence _ => rfl
  | .mapping _ => rfl
  | .tagged _ value => by rw [bare, ofValue, ofValue_bare value]

/-- What stands at the end of a path in a value stands there in its JSON. -/
theorem at?_ofValue {value part : Value} {path : List PathStep}
    (hpart : at? value path = some part) :
    (ofValue shown value).at? path = some (ofValue shown part) := by
  induction path generalizing value with
  | nil =>
      obtain rfl := Option.some.inj hpart
      rw [ofValue_bare, Json.at?]
  | cons step path ih =>
      rw [at?, Option.bind_eq_some_iff] at hpart
      obtain ⟨next, hnext, hrest⟩ := hpart
      have hchild : (ofValue shown value).child? step = some (ofValue shown next) := by
        rw [child?_ofValue value, hnext, Option.map_some]
        intro text htext
        rw [htext] at hnext
        exact absurd hnext nofun
      rw [Json.at?, hchild, Option.bind_some, ih hrest]

/-- With strings as they are, a path leads somewhere in the JSON of a value only if it does
in the value. -/
theorem at?_plain (value : Value) (path : List PathStep) :
    (plain value).at? path = (at? value path).map plain := by
  induction path generalizing value with
  | nil => exact congrArg some (ofValue_bare value).symm
  | cons step path ih =>
      have hchild : (plain value).child? step = (child? (bare value) step).map plain :=
        child?_ofValue value fun _ _ => rfl
      rw [Json.at?, at?, hchild]
      cases child? (bare value) step with
      | none => rfl
      | some part => exact ih part

/-! ## Behind references -/

/-- What a YAML document is inlined as: the value it holds, with its strings as they are. -/
theorem inlined?_of_yaml {files : FileSystem} {directory target content : String} {inner : Value}
    (hread : files (Include.pathOf directory target) = .ok content)
    (hyaml : Include.isYamlTarget target = true)
    (hvalue : Yaml.read (Include.valuesText content) = .ok inner) :
    inlined? files directory target = some (plain inner) := by
  rw [inlined?, hread]
  simp only [hyaml, hvalue, if_true]
  rfl

/-- Behind a reference, a path goes on in what the reference names. -/
theorem at?_ofDocument {files : FileSystem} {directory text target : String} {value : Value}
    {path : List PathStep} {json : Json} (hstring : at? value path = some (.string text))
    (htarget : Include.target? text = some target)
    (hinlined : inlined? files directory target = some json) (rest : List PathStep) :
    (ofDocument files directory value).at? (path ++ rest) = json.at? rest := by
  have htext : ofText files directory text = json := by
    rw [ofText, htarget]
    simp only [hinlined, Option.getD_some]
  rw [Json.at?_append, ofDocument, at?_ofValue hstring, Option.bind_some, ofValue, htext]

/-- A value becomes JSON part by part.  Items keep their places.  A mapping has one member for
each text that a key reads as, with what the last such entry holds.  Tags leave no trace, and
each part stands at the end of its own path.  Where a string of a document stands for a
reference, what the reference names stands behind it, and what a YAML document holds stands
there with all its strings as they are. -/
theorem ofValue_structural (shown : String → Json) :
    (∀ items, ofValue shown (.sequence items) = .array (items.map (ofValue shown))) ∧
    (∀ entries, ∃ members, ofValue shown (.mapping entries) = .object members ∧
      Json.Ordered members ∧
      (∀ name, name ∈ Json.names members ↔ ∃ entry ∈ entries, keyText entry.1 = name) ∧
      ∀ name, members.lookup name = (lastOf entries name).map (ofValue shown)) ∧
    (∀ value, ofValue shown (untagged value) = ofValue shown value) ∧
    (∀ value path part, at? value path = some part →
      (ofValue shown value).at? path = some (ofValue shown part)) ∧
    (∀ files directory value path text target json, at? value path = some (.string text) →
      Include.target? text = some target → inlined? files directory target = some json →
        ∀ rest, (ofDocument files directory value).at? (path ++ rest) = json.at? rest) ∧
    ∀ files directory target content inner,
      files (Include.pathOf directory target) = .ok content →
      Include.isYamlTarget target = true → Yaml.read (Include.valuesText content) = .ok inner →
        ∃ json, inlined? files directory target = some json ∧
          (∀ path, json.at? path = (at? inner path).map plain) ∧
          ∀ path text, at? inner path = some (.string text) →
            json.at? path = some (.string text) := by
  refine ⟨ofValue_sequence, fun entries => ?_, ofValue_untagged, fun value path part => at?_ofValue,
    fun files directory value path text target json => at?_ofDocument,
    fun files directory target content inner hread hyaml hvalue => ?_⟩
  · exact ⟨membersOf shown entries, ofValue_mapping entries, Json.ordered_membersOf _,
      mem_names_membersOf entries, lookup_membersOf entries⟩
  · refine ⟨plain inner, inlined?_of_yaml hread hyaml hvalue, at?_plain inner,
      fun path text hstring => ?_⟩
    rw [at?_plain, hstring, Option.map_some]
    rfl

/-- A reference under a tag gives way to the document that it names, and the reference in
that document stays. -/
theorem ofValue_structural_of_nested :
    (ofDocument (fun _ => .ok "b: !include y.md\n") ""
        (.mapping [(.string "a", .tagged "!t" (.string "!include x.yaml"))])).at?
      [.member "a", .member "b"] = some (.string "!include y.md") := by
  obtain ⟨-, -, -, -, hbehind, hinner⟩ := ofValue_structural .string
  have hread : ((Yaml.read (Include.valuesText "b: !include y.md\n")).toOption.bind
      (at? · [.member "b"])).any (·.same (.string "!include y.md")) = true := by
    decide +kernel
  cases hvalue : Yaml.read (Include.valuesText "b: !include y.md\n") with
  | error error => rw [hvalue] at hread; contradiction
  | ok inner =>
      obtain ⟨json, hinlined, -, hverbatim⟩ := hinner (fun _ => .ok "b: !include y.md\n") ""
        "x.yaml" _ inner rfl (by decide +kernel) hvalue
      rw [hvalue] at hread
      have hstring : at? inner [.member "b"] = some (.string "!include y.md") := by
        simp only [Except.toOption, Option.bind_some] at hread
        cases hpart : at? inner [.member "b"] with
        | none => rw [hpart] at hread; contradiction
        | some part =>
            rw [hpart] at hread
            cases part <;> simp_all [Value.same]
      have houter : at? (.mapping [(.string "a", .tagged "!t" (.string "!include x.yaml"))])
          [.member "a"] = some (.string "!include x.yaml") := rfl
      have htarget : Include.target? "!include x.yaml" = some "x.yaml" := by decide +kernel
      rw [← hverbatim _ _ hstring]
      exact hbehind _ "" _ [.member "a"] _ _ json houter htarget hinlined [.member "b"]

end Payload

end RamlCheck
