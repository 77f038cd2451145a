import RamlCheck.Validation

/-!
# What a payload depends on

The payload of a document is its value as JSON, in which strings that spell a reference
out give way to what they name (`ofValue_eq_replaceStrings`).  So it depends on the files
that these name and on no others, and it is the plain value for all files alike only if
there is no such string (`Document.payload_reads_targets`).

That no reference stands in the text does not suffice for this.  In the value a reference
is the string that its rewriting left, and a string that the author wrote is taken for one
if it reads the same: `Document.quoted_reference_inlined` shows such a document.

## Strategy

Replacing the strings of a JSON value passes through the insertion of members, since names
of members are no strings of it.  Two ways to replace them come to the same only if they do
for each string (`Json.replaceStrings_eq_iff`).  A file that reads as a number or as a text
of its own, wherever it is named, tells which strings are replaced (`inlined?_one`).
-/

namespace RamlCheck

open Yaml (Value)

/-! ## The strings of a JSON value -/

namespace Json

mutual

/-- A JSON value in which each string gives way to something. -/
def replaceStrings (shown : String → Json) : Json → Json
  | .null => .null
  | .bool value => .bool value
  | .integer value => .integer value
  | .float value => .float value
  | .string text => shown text
  | .array items => .array (replaceInItems shown items)
  | .object members => .object (replaceInMembers shown members)

/-- The items of an array in which each string gives way to something. -/
def replaceInItems (shown : String → Json) : List Json → List Json
  | [] => []
  | item :: rest => replaceStrings shown item :: replaceInItems shown rest

/-- The members of an object in which each string gives way to something; names stay. -/
def replaceInMembers (shown : String → Json) : List (String × Json) → List (String × Json)
  | [] => []
  | (name, value) :: rest => (name, replaceStrings shown value) :: replaceInMembers shown rest

end

mutual

/-- The strings of a JSON value, names of members aside. -/
def strings : Json → List String
  | .null => []
  | .bool _ => []
  | .integer _ => []
  | .float _ => []
  | .string text => [text]
  | .array items => stringsOfItems items
  | .object members => stringsOfMembers members

/-- The strings of the items of an array. -/
def stringsOfItems : List Json → List String
  | [] => []
  | item :: rest => strings item ++ stringsOfItems rest

/-- The strings of the members of an object. -/
def stringsOfMembers : List (String × Json) → List String
  | [] => []
  | (_, value) :: rest => strings value ++ stringsOfMembers rest

end

variable {shown other : String → Json}

theorem replaceInMembers_insertMember (name : String) (value : Json)
    (members : List (String × Json)) :
    replaceInMembers shown (insertMember name value members) =
      insertMember name (value.replaceStrings shown) (replaceInMembers shown members) := by
  induction members with
  | nil => rfl
  | cons member rest ih =>
      obtain ⟨other, old⟩ := member
      rw [replaceInMembers, insertMember, insertMember]
      split
      · rw [replaceInMembers]
      · split
        · rw [replaceInMembers, replaceInMembers]
        · rw [replaceInMembers, ih]

mutual

/-- Two ways to replace strings come to the same only if they do for each string. -/
theorem replaceStrings_eq_iff : ∀ json : Json,
    json.replaceStrings shown = json.replaceStrings other ↔
      ∀ text ∈ json.strings, shown text = other text
  | .null => by simp [replaceStrings, strings]
  | .bool _ => by simp [replaceStrings, strings]
  | .integer _ => by simp [replaceStrings, strings]
  | .float _ => by simp [replaceStrings, strings]
  | .string text => by simp [replaceStrings, strings]
  | .array items => by
      rw [replaceStrings, replaceStrings, strings, array.injEq, replaceInItems_eq_iff items]
  | .object members => by
      rw [replaceStrings, replaceStrings, strings, object.injEq, replaceInMembers_eq_iff members]

theorem replaceInItems_eq_iff : ∀ items : List Json,
    replaceInItems shown items = replaceInItems other items ↔
      ∀ text ∈ stringsOfItems items, shown text = other text
  | [] => by simp [replaceInItems, stringsOfItems]
  | item :: rest => by
      rw [replaceInItems, replaceInItems, stringsOfItems, List.cons.injEq,
        replaceStrings_eq_iff item, replaceInItems_eq_iff rest, List.forall_mem_append]

theorem replaceInMembers_eq_iff : ∀ members : List (String × Json),
    replaceInMembers shown members = replaceInMembers other members ↔
      ∀ text ∈ stringsOfMembers members, shown text = other text
  | [] => by simp [replaceInMembers, stringsOfMembers]
  | (name, value) :: rest => by
      rw [replaceInMembers, replaceInMembers, stringsOfMembers, List.cons.injEq, Prod.mk.injEq,
        replaceStrings_eq_iff value, replaceInMembers_eq_iff rest, List.forall_mem_append]
      simp only [true_and]

end

end Json

/-! ## Payloads -/

namespace Payload

variable {shown : String → Json}

theorem ofNumber_replaceStrings (number : Yaml.Number) :
    (ofNumber number).replaceStrings shown = ofNumber number := by
  cases number with
  | integer value => rfl
  | float value =>
      rw [ofNumber]
      split <;> rfl

/-- Replacing strings passes through entries as they become members one by one. -/
theorem replaceInMembers_foldl (entries : List (String × Json)) (members : List (String × Json)) :
    Json.replaceInMembers shown
        (entries.foldl (fun members entry => Json.insertMember entry.1 entry.2 members) members) =
      (Json.replaceInMembers shown entries).foldl
        (fun members entry => Json.insertMember entry.1 entry.2 members)
        (Json.replaceInMembers shown members) := by
  induction entries generalizing members with
  | nil => rfl
  | cons entry rest ih =>
      obtain ⟨name, value⟩ := entry
      rw [List.foldl_cons, ih, Json.replaceInMembers_insertMember, Json.replaceInMembers,
        List.foldl_cons]

mutual

/-- A value in which strings are shown some way is the plain value with its strings
replaced. -/
theorem ofValue_eq_replaceStrings : ∀ value : Value,
    ofValue shown value = (plain value).replaceStrings shown
  | .null => rfl
  | .bool _ => rfl
  | .number value => (ofNumber_replaceStrings value).symm
  | .string _ => rfl
  | .sequence items => by
      rw [plain, ofValue, ofValue, Json.replaceStrings, ofItems_eq_replaceInItems items]
  | .mapping entries => by
      rw [plain, ofValue, ofValue, ofEntries_eq_replaceInMembers entries, Json.ofEntries,
        Json.ofEntries, Json.replaceStrings, replaceInMembers_foldl]
      rfl
  | .tagged _ value => by
      rw [plain, ofValue, ofValue, ofValue_eq_replaceStrings value, plain]

theorem ofItems_eq_replaceInItems : ∀ items : List Value,
    ofItems shown items = Json.replaceInItems shown (ofItems .string items)
  | [] => rfl
  | item :: rest => by
      rw [ofItems, ofItems, Json.replaceInItems, ofValue_eq_replaceStrings item, plain,
        ofItems_eq_replaceInItems rest]

theorem ofEntries_eq_replaceInMembers : ∀ entries : List (Value × Value),
    ofEntries shown entries = Json.replaceInMembers shown (ofEntries .string entries)
  | [] => rfl
  | (key, value) :: rest => by
      rw [ofEntries, ofEntries, Json.replaceInMembers, ofValue_eq_replaceStrings value, plain,
        ofEntries_eq_replaceInMembers rest]

end

/-! ## What strings give way to -/

/-- A string that spells no reference out stays. -/
theorem ofText_of_target?_eq_none {text : String} (htext : Include.target? text = none)
    (files : FileSystem) (directory : String) : ofText files directory text = .string text := by
  rw [ofText, htext]

/-- What a string gives way to is settled by the file that its target names. -/
theorem ofText_congr {files others : FileSystem} {directory text : String}
    (hagree : ∀ target ∈ Include.target? text, files (Include.pathOf directory target) =
      others (Include.pathOf directory target)) :
    ofText files directory text = ofText others directory text := by
  cases htarget : Include.target? text with
  | none => rw [ofText_of_target?_eq_none htarget, ofText_of_target?_eq_none htarget]
  | some target =>
      have hfile := hagree target htarget
      simp only [ofText, htarget, inlined?, hfile]

/-- Whether a JSON value is a string that spells a reference out. -/
def isReference : Json → Bool
  | .string text => (Include.target? text).isSome
  | _ => false

/-- A file with a digit in it reads as something else than a reference, however it is
named. -/
theorem inlined?_one (directory target : String) :
    (inlined? (fun _ => .ok "1") directory target).any (!isReference ·) = true := by
  rw [inlined?]
  simp only
  split
  · decide +kernel
  · split <;> decide +kernel

/-- A string that no file replaces spells no reference out. -/
theorem target?_eq_none_of_kept {directory text : String}
    (hkept : ∀ files : FileSystem, ofText files directory text = .string text) :
    Include.target? text = none := by
  cases htarget : Include.target? text with
  | none => rfl
  | some target =>
      have hone := inlined?_one directory target
      have htext := hkept fun _ => .ok "1"
      simp only [ofText, htarget] at htext
      cases hinlined : inlined? (fun _ => .ok "1") directory target with
      | none => simp [hinlined] at hone
      | some json =>
          rw [hinlined] at hone htext
          obtain rfl : json = .string text := htext
          simp [isReference, htarget] at hone

end Payload

/-- The payload of a document depends on the files that strings of its value spell out, and
on no others.  It is the plain value for all files alike only if there is no such string. -/
theorem Document.payload_reads_targets (document : Document) :
    (∀ files others : FileSystem,
      (∀ text ∈ (Payload.plain document.value).strings, ∀ target ∈ Include.target? text,
        files (Include.pathOf document.directory target) =
          others (Include.pathOf document.directory target)) →
        document.payload files = document.payload others) ∧
      ((∀ files, document.payload files = Payload.plain document.value) ↔
        ∀ text ∈ (Payload.plain document.value).strings, Include.target? text = none) := by
  have hpayload : ∀ files, document.payload files = (Payload.plain document.value).replaceStrings
      (Payload.ofText files document.directory) := fun _ => Payload.ofValue_eq_replaceStrings _
  have hplain : Payload.plain document.value =
      (Payload.plain document.value).replaceStrings .string := Payload.ofValue_eq_replaceStrings _
  -- both sides replace the strings of one value, so they are the same if each string is
  have hkept : ∀ files, document.payload files = Payload.plain document.value ↔
      ∀ text ∈ (Payload.plain document.value).strings,
        Payload.ofText files document.directory text = .string text := by
    intro files
    rw [hpayload, ← Json.replaceStrings_eq_iff, ← hplain]
  refine ⟨fun files others hagree => ?_, fun hall text htext => ?_, fun hnone files => ?_⟩
  · rw [hpayload, hpayload, Json.replaceStrings_eq_iff]
    exact fun text htext => Payload.ofText_congr (hagree text htext)
  · -- there is a file system that gives a target another text than the reference
    exact Payload.target?_eq_none_of_kept fun files => (hkept files).mp (hall files) text htext
  · exact (hkept files).mpr fun text htext =>
      Payload.ofText_of_target?_eq_none (hnone text htext) files document.directory

/-- Words in quotes that read like a reference are taken for one: there is no reference in
the text, and still a file takes their place. -/
theorem Document.quoted_reference_inlined :
    (Document.load "api.raml" ""
      "#%RAML 1.0\ntitle: Notes\ndescription: \"!include notes.md\"\n").toOption.any
        (fun document => document.includes.isEmpty &&
          (document.payload fun _ => .ok "secret").compact =
            "\x7b\"description\":\"secret\",\"title\":\"Notes\"\x7d" &&
          (Payload.plain document.value).compact =
            "\x7b\"description\":\"!include notes.md\",\"title\":\"Notes\"\x7d") = true := by
  decide +kernel

end RamlCheck
