import Mathlib.Algebra.Order.BigOperators.Group.List
import Mathlib.Algebra.Order.Group.Nat
import RamlCheck.Document.Reference
import RamlCheck.Proofs.Document.Order
import RamlCheck.Proofs.Document.Payload
import RamlCheck.Proofs.Rule.Reading

/-!
# Which files a validation reads

A validation reads the file of its source and what the document in it refers to, and no
other file: `Source.reads` lists these paths, and `reads_one_level` says that the verdict
depends on them alone.  So what an included file refers to is never read, even if files
refer to each other in a circle.  The one level is read: whatever a reference of the
document names, the verdict depends on it.

## Strategy

The verdict is made of findings and a payload.  Among the rules only the one about references
reads files (`Registry.ReadsReferences`), and a payload reads what strings of the value spell
out (`Payload.ofValue_congr`, by recursion on the value).  That a reference is read shows in
the number of findings: there is one more if its file is missing than if its file holds a
digit, which is faultless in every format (`length_findings_lt`).
-/

namespace RamlCheck

open Yaml (Value)

/-- The files, of which one reads some other way. -/
def FileSystem.replace (files : FileSystem) (path : String)
    (result : Except ReadFailure String) : FileSystem :=
  fun other => if other = path then result else files other

@[simp] theorem FileSystem.replace_self (files : FileSystem) (path : String)
    (result : Except ReadFailure String) : files.replace path result path = result :=
  if_pos rfl

theorem FileSystem.replace_of_ne (files : FileSystem) {path other : String}
    (result : Except ReadFailure String) (hne : other ≠ path) :
    files.replace path result other = files other :=
  if_neg hne

variable {files others : FileSystem}

/-! ## Payloads -/

namespace Payload

variable {directory : String}

mutual

/-- A value as JSON is settled by the files that its strings spell out. -/
theorem ofValue_congr : ∀ value : Value,
    (∀ target ∈ value.targets, files (Include.pathOf directory target) =
      others (Include.pathOf directory target)) →
    ofValue (ofText files directory) value = ofValue (ofText others directory) value
  | .null, _ => rfl
  | .bool _, _ => rfl
  | .number _, _ => rfl
  | .string text, hagree => by
      rw [ofValue, ofValue]
      apply ofText_congr
      intro target htarget
      exact hagree target (Option.mem_toList.mpr htarget)
  | .sequence items, hagree => by
      rw [ofValue, ofValue, ofItems_congr items hagree]
  | .mapping entries, hagree => by
      rw [ofValue, ofValue, ofEntries_congr entries hagree]
  | .tagged _ value, hagree => by
      rw [ofValue, ofValue, ofValue_congr value hagree]

theorem ofItems_congr : ∀ items : List Value,
    (∀ target ∈ Value.targetsOfItems items, files (Include.pathOf directory target) =
      others (Include.pathOf directory target)) →
    ofItems (ofText files directory) items = ofItems (ofText others directory) items
  | [], _ => rfl
  | item :: rest, hagree => by
      rw [Value.targetsOfItems, List.forall_mem_append] at hagree
      rw [ofItems, ofItems, ofValue_congr item hagree.1, ofItems_congr rest hagree.2]

theorem ofEntries_congr : ∀ entries : List (Value × Value),
    (∀ target ∈ Value.targetsOfEntries entries, files (Include.pathOf directory target) =
      others (Include.pathOf directory target)) →
    ofEntries (ofText files directory) entries = ofEntries (ofText others directory) entries
  | [], _ => rfl
  | (key, value) :: rest, hagree => by
      rw [Value.targetsOfEntries, List.forall_mem_append] at hagree
      rw [ofEntries, ofEntries, ofValue_congr value hagree.1, ofEntries_congr rest hagree.2]

end

end Payload

/-! ## Documents -/

namespace Document

variable {document : Document} {registry : Registry}

theorem pathOf_mem_references {target : String} (htarget : target ∈ document.targets) :
    Include.pathOf document.directory target ∈ document.references :=
  List.mem_map_of_mem htarget

theorem payload_congr (hagree : ∀ path ∈ document.references, files path = others path) :
    document.payload files = document.payload others := by
  apply Payload.ofValue_congr
  intro target htarget
  exact hagree _ (pathOf_mem_references (List.mem_append_right _ htarget))

theorem findings_congr (hregistry : registry.ReadsReferences)
    (hagree : ∀ path ∈ document.references, files path = others path) :
    document.findings registry files = document.findings registry others := by
  apply List.flatMap_congr
  intro rule hrule
  rcases hregistry rule hrule with hnone | rfl
  · exact hnone files others document
  · apply Rule.includes_congr
    intro reference hreference
    exact hagree _ (pathOf_mem_references
      (List.mem_append_left _ (List.mem_map_of_mem hreference)))

theorem verdict_congr (hregistry : registry.ReadsReferences)
    (hagree : ∀ path ∈ document.references, files path = others path) :
    document.verdict registry files = document.verdict registry others := by
  unfold verdict sortedFindings
  rw [findings_congr hregistry hagree, payload_congr hagree]

end Document

/-! ## Sources -/

namespace Source

/-- The file that a source is, if it is one. -/
def path? : Source → Option String
  | .file path => some path
  | .content _ _ => none

/-- The paths that the validation of a source reads: its own, and those that the document in
it refers to. -/
def reads (files : FileSystem) (source : Source) : List String :=
  source.path?.toList ++
    match source.load files with
    | .ok document => document.references
    | .error _ => []

theorem open?_congr {source : Source} (hagree : ∀ path ∈ source.path?, files path = others path) :
    source.open? files = source.open? others := by
  cases source with
  | file path =>
      have hpath := hagree path rfl
      simp only [open?, hpath]
  | content name text => rfl

theorem load_congr {source : Source} (hagree : ∀ path ∈ source.path?, files path = others path) :
    source.load files = source.load others := by
  unfold load
  rw [open?_congr hagree]

end Source

/-- The verdict on a source depends on the files that are read, and on no others. -/
theorem validator_congr {registry : Registry} (hregistry : registry.ReadsReferences)
    {source : Source} (hagree : ∀ path ∈ source.reads files, files path = others path) :
    validator registry files source = validator registry others source := by
  unfold Source.reads at hagree
  rw [List.forall_mem_append] at hagree
  have hload : source.load files = source.load others := by
    apply Source.load_congr
    intro path hpath
    exact hagree.1 path (Option.mem_toList.mpr hpath)
  unfold validator
  rw [← hload]
  cases hdocument : source.load files with
  | error failure => rfl
  | ok document =>
      rw [hdocument] at hagree
      exact Document.verdict_congr hregistry hagree.2

/-! ## A reference is read -/

theorem length_flatMap_lt {Item Other : Type} {items : List Item} {fewer more : Item → List Other}
    (hle : ∀ item ∈ items, (fewer item).length ≤ (more item).length)
    (hlt : ∃ item ∈ items, (fewer item).length < (more item).length) :
    (items.flatMap fewer).length < (items.flatMap more).length := by
  rw [List.length_flatMap, List.length_flatMap]
  exact List.sum_lt_sum _ _ hle hlt

/-- A digit is faultless in every format. -/
theorem Rule.contentFault?_one (target : String) : contentFault? target "1" = none := by
  unfold contentFault?
  split
  · decide +kernel
  · split
    · decide +kernel
    · rfl

section

variable {document : Document} {path : String}

/-- A reference to a file with a digit is in order. -/
theorem Rule.includeFinding?_one {reference : Include}
    (hpath : Include.pathOf document.directory reference.target = path) :
    includeFinding? (files.replace path (.ok "1")) document reference = none := by
  unfold includeFinding?
  rw [hpath, FileSystem.replace_self]
  simp only [contentFault?_one, Option.map_none]

/-- The rule about references finds more if a file is missing than if it holds a digit. -/
theorem Rule.length_includes_lt (files : FileSystem) {reference : Include}
    (hreference : reference ∈ document.includes)
    (hpath : Include.pathOf document.directory reference.target = path) :
    (includes.check (files.replace path (.ok "1")) document).length <
      (includes.check (files.replace path (.error .notFound)) document).length := by
  show (document.includes.filterMap _).length < (document.includes.filterMap _).length
  rw [List.filterMap_eq_flatMap_toList, List.filterMap_eq_flatMap_toList]
  apply length_flatMap_lt
  · intro other _
    by_cases hnamed : Include.pathOf document.directory other.target = path
    · rw [includeFinding?_one hnamed]
      exact Nat.zero_le _
    · have hsame : ∀ result, includeFinding? (files.replace path result) document other =
          includeFinding? files document other :=
        fun result => includeFinding?_congr (files.replace_of_ne result hnamed)
      rw [hsame, hsame]
  · refine ⟨reference, hreference, ?_⟩
    rw [includeFinding?_one hpath]
    unfold includeFinding?
    rw [hpath, FileSystem.replace_self]
    exact Nat.zero_lt_one

/-- There are more findings if a file that a reference names is missing than if it holds a
digit. -/
theorem Document.length_findings_lt (files : FileSystem) {registry : Registry}
    (hregistry : registry.ReadsReferences) (hincludes : Rule.includes ∈ registry.rules)
    {reference : Include} (hreference : reference ∈ document.includes)
    (hpath : Include.pathOf document.directory reference.target = path) :
    (document.findings registry (files.replace path (.ok "1"))).length <
      (document.findings registry (files.replace path (.error .notFound))).length := by
  have hlt := Rule.length_includes_lt files hreference hpath
  apply length_flatMap_lt
  · intro rule hrule
    rcases hregistry rule hrule with hnone | rfl
    · rw [hnone (files.replace path (.ok "1")) (files.replace path (.error .notFound)) document]
    · exact hlt.le
  · exact ⟨Rule.includes, hincludes, hlt⟩

end

/-- References are followed for one level.  The verdict on a source is the same for all file
systems that agree on its own file and on what the document in it refers to, so nothing else
is read, least of all what an included file refers to.  And what a reference of the document
names is read: unless it is the document itself, the verdict depends on it. -/
theorem reads_one_level {registry : Registry} (hregistry : registry.ReadsReferences)
    (files : FileSystem) (source : Source) :
    (∀ others : FileSystem, (∀ path ∈ source.reads files, files path = others path) →
      validator registry files source = validator registry others source) ∧
    ∀ document, source.load files = .ok document → Rule.includes ∈ registry.rules →
      ∀ reference ∈ document.includes,
        Include.pathOf document.directory reference.target ∉ source.path? →
        ∃ first second : FileSystem,
          (∀ path, path ≠ Include.pathOf document.directory reference.target →
            first path = files path ∧ second path = files path) ∧
          validator registry first source ≠ validator registry second source := by
  refine ⟨fun others hagree => validator_congr hregistry hagree, ?_⟩
  intro document hload hincludes reference hreference hother
  generalize hpath : Include.pathOf document.directory reference.target = path at hother
  have hdocument : ∀ result, source.load (files.replace path result) = .ok document := by
    intro result
    rw [← hload]
    apply Source.load_congr
    intro own hown
    exact files.replace_of_ne result fun heq => hother (heq ▸ hown)
  -- a digit is in order whatever the format of the target, a missing file never is
  refine ⟨files.replace path (.ok "1"), files.replace path (.error .notFound), ?_, ?_⟩
  · intro other hne
    exact ⟨files.replace_of_ne _ hne, files.replace_of_ne _ hne⟩
  · intro hsame
    have hlt := Document.length_findings_lt files hregistry hincludes hreference hpath
    simp only [validator, hdocument] at hsame
    have hlength := congrArg (fun verdict => (Verdict.findings verdict).length) hsame
    simp only [Document.findings_verdict, Document.sortedFindings, List.length_mergeSort]
      at hlength
    omega

/-- A document with a reference to a file that refers back to it, and to a third file. -/
def circle : FileSystem :=
  .ofList [("a.raml", .ok "#%RAML 1.0\ntitle: x\ntypes: !include b.raml\n"),
    ("b.raml", .ok "A: !include a.raml\nB: !include c.raml\n")]

/-- The third file does not matter, whatever it holds and whether or not there is one. -/
theorem reads_one_level_of_circle :
    Registry.builtin.ReadsReferences ∧ ∀ result,
      validator .builtin circle (.file "a.raml") =
        validator .builtin (circle.replace "c.raml" result) (.file "a.raml") := by
  refine ⟨Registry.readsReferences_builtin, fun result => ?_⟩
  have hreads : (Source.file "a.raml").reads circle = ["a.raml", "b.raml", "b.raml"] := by
    decide +kernel
  apply (reads_one_level Registry.readsReferences_builtin circle (.file "a.raml")).1
  intro path hpath
  refine (circle.replace_of_ne result ?_).symm
  rintro rfl
  rw [hreads] at hpath
  exact absurd hpath (by decide)

end RamlCheck
