import Mathlib.Data.List.Forall2
import RamlCheck.Validation

/-!
# References that stay, and references that are reported

What a reference names is read twice: for the payload, where the content takes the place of
the reference, and by the rule about references, which reports what is wrong with it.  Both
come to the same: a reference stays in the payload if and only if the rule reports it
(`Document.reported_iff_kept`).

## Strategy

`Rule.Reports` lists the three things that the rule says, with where it says them.  The rule
says one of them in exactly the cases of `Rule.Reports` (`Rule.includeFinding?_eq_some_iff`),
and these are the cases in which the payload finds nothing to inline
(`Payload.inlined?_eq_none_iff`).  Over a list of references, the findings then go with the
references that stay, one by one (`Rule.reports_references`).
-/

namespace RamlCheck

variable {files : FileSystem} {document : Document} {reference : Include} {finding : Finding}

/-! ## What the rule says -/

namespace Rule

/-- What the rule about references says about one of them.  A file that cannot be read is
reported at the reference, in the document itself; a file that does not hold what its name
promises is reported where its reader stopped, under the target of the reference. -/
inductive Reports (files : FileSystem) (document : Document) (reference : Include) :
    Finding → Prop
  | unreadable {failure : ReadFailure}
      (hread : files (Include.pathOf document.directory reference.target) = .error failure) :
      Reports files document reference
        { path := document.name, line := reference.line, column := reference.column,
          message :=
            "Can not resolve include '" ++ reference.target ++ "': " ++ failure.message,
          isWarning := false }
  | notYaml {content : String} {error : Yaml.Error}
      (hread : files (Include.pathOf document.directory reference.target) = .ok content)
      (hyaml : Include.isYamlTarget reference.target = true)
      (herror : Yaml.read (Include.valuesText content) = .error error) :
      Reports files document reference
        { path := reference.target, line := (error.position?.getD (1, 1)).1,
          column := (error.position?.getD (1, 1)).2, message := error.summary,
          isWarning := false }
  | notJson {content : String} {error : Json.Error}
      (hread : files (Include.pathOf document.directory reference.target) = .ok content)
      (hyaml : Include.isYamlTarget reference.target = false)
      (hjson : Include.isJsonTarget reference.target = true)
      (herror : Json.read content = .error error) :
      Reports files document reference
        { path := reference.target, line := max error.place.line 1,
          column := max error.place.column 1, message := error.message, isWarning := false }

/-- Nothing is wrong with a text if it holds what its name promises. -/
theorem contentFault?_eq_none_iff {target content : String} :
    contentFault? target content = none ↔
      (Include.isYamlTarget target = true →
        (Yaml.read (Include.valuesText content)).toOption.isSome = true) ∧
      (Include.isYamlTarget target = false → Include.isJsonTarget target = true →
        (Json.read content).toOption.isSome = true) := by
  unfold contentFault?
  cases hyaml : Include.isYamlTarget target with
  | true => cases Yaml.read (Include.valuesText content) <;> simp [Except.toOption]
  | false =>
      cases hjson : Include.isJsonTarget target with
      | true => cases Json.read content <;> simp [Except.toOption]
      | false => simp

theorem reports_of_includeFinding? (hfinding : includeFinding? files document reference =
    some finding) : Reports files document reference finding := by
  unfold includeFinding? at hfinding
  split at hfinding
  · next failure hread =>
    obtain rfl := Option.some.inj hfinding
    exact .unreadable hread
  · next content hread =>
    -- the content is there, so what is wrong is wrong with it
    obtain ⟨⟨line, column, message⟩, hfault, rfl⟩ := Option.map_eq_some_iff.mp hfinding
    unfold contentFault? at hfault
    split at hfault
    · next hyaml =>
      split at hfault
      · cases hfault
      · next error herror =>
        obtain ⟨rfl, rfl, rfl⟩ := hfault
        exact .notYaml hread hyaml herror
    · next hyaml =>
      split at hfault
      · next hjson =>
        split at hfault
        · cases hfault
        · next error herror =>
          obtain ⟨rfl, rfl, rfl⟩ := hfault
          exact .notJson hread (Bool.eq_false_iff.mpr hyaml) hjson herror
      · cases hfault

theorem includeFinding?_of_reports (hreports : Reports files document reference finding) :
    includeFinding? files document reference = some finding := by
  cases hreports with
  | unreadable hread => rw [includeFinding?, hread]; rfl
  | notYaml hread hyaml herror =>
      rw [includeFinding?, hread]
      simp only [contentFault?, hyaml, herror, if_true]
      rfl
  | notJson hread hyaml hjson herror =>
      rw [includeFinding?, hread]
      simp only [contentFault?, hyaml, hjson, herror, if_true, Bool.false_eq_true, if_false]
      rfl

/-- The rule says what `Reports` lists, and nothing else. -/
theorem includeFinding?_eq_some_iff :
    includeFinding? files document reference = some finding ↔
      Reports files document reference finding :=
  ⟨reports_of_includeFinding?, includeFinding?_of_reports⟩

end Rule

/-! ## What stays in the payload -/

namespace Payload

/-- A text takes the place of a reference if nothing is wrong with it. -/
theorem inlined?_eq_none_iff_of_read {directory target content : String}
    (hread : files (Include.pathOf directory target) = .ok content) :
    inlined? files directory target = none ↔ Rule.contentFault? target content ≠ none := by
  simp only [Ne, Rule.contentFault?_eq_none_iff, inlined?, hread]
  cases hyaml : Include.isYamlTarget target with
  | true => simp
  | false =>
      cases hjson : Include.isJsonTarget target with
      | true => simp
      | false => simp

/-- A reference stays if and only if the rule has something to say about it. -/
theorem inlined?_eq_none_iff :
    inlined? files document.directory reference.target = none ↔
      ∃ finding, Rule.Reports files document reference finding := by
  simp only [← Rule.includeFinding?_eq_some_iff, ← Option.isSome_iff_exists]
  cases hread : files (Include.pathOf document.directory reference.target) with
  | error failure => simp [inlined?, Rule.includeFinding?, hread]
  | ok content =>
      rw [inlined?_eq_none_iff_of_read hread, Rule.includeFinding?, hread]
      simp only [Option.isSome_map, Option.isSome_iff_ne_none]

/-- A string that stands for a reference stays as it is where there is nothing to inline. -/
theorem ofText_of_inlined?_eq_none {directory text target : String}
    (htarget : Include.target? text = some target)
    (hnone : inlined? files directory target = none) :
    ofText files directory text = .string text := by
  rw [ofText, htarget]
  simp only [hnone, Option.getD_none]

end Payload

/-! ## All references of a document -/

/-- Over a single reference, the rule has the findings that it has about that one. -/
theorem Rule.mem_check_includes_singleton :
    finding ∈ Rule.includes.check files { document with includes := [reference] } ↔
      Reports files document reference finding := by
  have hcheck : Rule.includes.check files { document with includes := [reference] } =
      (includeFinding? files document reference).toList := by
    show [reference].filterMap (includeFinding? files document) = _
    cases hfinding : includeFinding? files document reference <;> simp [hfinding]
  rw [hcheck, Option.mem_toList, includeFinding?_eq_some_iff]

/-- The findings go with the references that stay in the payload, one by one. -/
theorem Rule.reports_references (references : List Include) :
    List.Forall₂ (Reports files document)
      (references.filter fun reference =>
        (Payload.inlined? files document.directory reference.target).isNone)
      (references.filterMap (includeFinding? files document)) := by
  induction references with
  | nil => exact .nil
  | cons reference rest ih =>
      cases hfinding : includeFinding? files document reference with
      | none =>
          -- what is not reported has been inlined, so neither list holds it
          have hinlined : ¬ Payload.inlined? files document.directory reference.target = none := by
            rw [Payload.inlined?_eq_none_iff]
            rintro ⟨finding, hreports⟩
            rw [includeFinding?_of_reports hreports] at hfinding
            exact absurd hfinding nofun
          rw [List.filterMap_cons_none hfinding, List.filter_cons_of_neg (by simpa using hinlined)]
          exact ih
      | some finding =>
          have hreports := reports_of_includeFinding? hfinding
          have hkept := Payload.inlined?_eq_none_iff.mpr ⟨finding, hreports⟩
          rw [List.filterMap_cons_some hfinding, List.filter_cons_of_pos (by simp [hkept])]
          exact .cons hreports ih

/-- The payload keeps a reference if and only if the rule about references reports one with
its target, wherever that stands.  Over a document, the rule has one finding for each
reference that stays and none for the others, in the order of the references. -/
theorem Document.reported_iff_kept (files : FileSystem) (document : Document) :
    (∀ reference : Include,
      Payload.inlined? files document.directory reference.target = none ↔
        ∃ finding, finding ∈ Rule.includes.check files { document with includes := [reference] }) ∧
    (∀ text target, Include.target? text = some target →
      Payload.inlined? files document.directory target = none →
        Payload.ofText files document.directory text = .string text) ∧
    List.Forall₂ (Rule.Reports files document)
      (document.includes.filter fun reference =>
        (Payload.inlined? files document.directory reference.target).isNone)
      (Rule.includes.check files document) := by
  refine ⟨fun reference => ?_, fun text target => Payload.ofText_of_inlined?_eq_none,
    Rule.reports_references document.includes⟩
  rw [Payload.inlined?_eq_none_iff]
  simp only [Rule.mem_check_includes_singleton]

/-- Of two references one names a file that does not hold JSON.  Its string stays, and what the
rule finds is about it alone. -/
theorem Document.reported_iff_kept_of_missing :
    ∃ document : Document, ∃ files : FileSystem,
      document.includes = [⟨"user.json", 3, 7⟩, ⟨"intro.md", 5, 14⟩] ∧
      Payload.ofText files document.directory "!include user.json" = .string "!include user.json" ∧
      List.Forall₂ (Rule.Reports files document) [⟨"user.json", 3, 7⟩]
        (Rule.includes.check files document) := by
  let document : Document :=
    { name := "api.raml", directory := "", header := ⟨.v10, none⟩, root := [], value := .null,
      includes := [⟨"user.json", 3, 7⟩, ⟨"intro.md", 5, 14⟩] }
  let files := FileSystem.ofList [("intro.md", .ok "Hello"), ("user.json", .ok "[1,")]
  obtain ⟨-, hkept, hreports⟩ := reported_iff_kept files document
  have hnone : Payload.inlined? files "" "user.json" = none := by
    rw [← Option.isNone_iff_eq_none]
    decide +kernel
  have hsome : (Payload.inlined? files "" "intro.md").isNone = false := by decide +kernel
  have htarget : Include.target? "!include user.json" = some "user.json" := by decide +kernel
  refine ⟨document, files, rfl, hkept _ _ htarget hnone, ?_⟩
  simpa [document, hnone, hsome] using hreports

end RamlCheck
