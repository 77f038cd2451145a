import RamlCheck.Proofs.Document.Order
import RamlCheck.Proofs.Rule.Reading
import RamlCheck.Proofs.Validation

/-!
# Where issues are placed

A validator files what it finds under the name of a document or under the target of a
reference, and the report looks both up from the directory of the input to place the issue
and to tell whether it is in an included document.  `issues_placed` says that the two agree:
what is filed under the name is placed at the path of the input, however that is spelt, and
what is filed under a target is placed at the very path that the reference was read from.

Hence a policy that leaves out included documents hides no issue of the document itself.

## Strategy

The name of a document is the last component of the path of its input, so looking it up
leads back to the input (`Input.Opened.equivalent`).  Issues in included documents are told
by their path alone, and what a rule finds is filed under the name or under a target that
was read (`Rule.isFiled_of_mem_check`).
-/

namespace RamlCheck

/-! ## Places of issues -/

namespace Issue

/-- An issue at the path of its input, however that is spelt; it does not count as found in
an included document. -/
def IsOwn (input : Input) (issue : Issue) : Prop :=
  ∃ location, issue.location = some location ∧
    Path.equivalent location.file input.path = true ∧ issue.fromIncluded = false

/-- An issue at some path; it counts as found in an included document unless this is a
spelling of the path of its input. -/
def IsAt (input : Input) (path : String) (issue : Issue) : Prop :=
  ∃ location, issue.location = some location ∧ location.file = path ∧
    (issue.fromIncluded = true ↔ Path.equivalent path input.path = false)

end Issue

variable {files : FileSystem} {content name directory text : String} {input : Input}

/-- What is filed under a path is placed where this path leads from the directory of the
input. -/
theorem Finding.isAt_toIssue (input : Input) (finding : Finding) :
    (finding.toIssue input).IsAt input (Path.join input.directory finding.path) := by
  refine ⟨_, rfl, rfl, ?_⟩
  show (!Path.equivalent _ _) = true ↔ _
  rw [Bool.not_eq_true']

/-- What is filed under the name of a document is placed in the document itself. -/
theorem Input.Opened.isOwn_toIssue (hopened : input.Opened files content name directory text)
    (hnamed : input.IsNamed) {finding : Finding} (hpath : finding.path = name) :
    (finding.toIssue input).IsOwn input := by
  obtain ⟨location, hlocation, hfile, hincluded⟩ := finding.isAt_toIssue input
  have hequivalent := hopened.equivalent hnamed
  rw [hpath] at hfile hincluded
  refine ⟨location, hlocation, ?_, ?_⟩
  · rw [hfile]
    exact hequivalent
  · rw [Bool.eq_false_iff]
    intro htrue
    rw [hincluded.mp htrue] at hequivalent
    contradiction

/-! ## Issues that are hidden -/

namespace Policy

/-- A policy as it is without included documents. -/
def withoutIncludes (policy : Policy) : Policy :=
  { policy with includes := false }

theorem keeps_withoutIncludes (policy : Policy) (issue : Issue) :
    policy.withoutIncludes.keeps issue = (policy.keeps issue && !issue.fromIncluded) := by
  unfold keeps withoutIncludes
  cases policy.includes <;> cases issue.fromIncluded <;> simp

theorem survivors_withoutIncludes (policy : Policy) (input : Input) (verdict : Verdict) :
    policy.withoutIncludes.survivors input verdict =
      (policy.survivors input verdict).filter fun issue => !issue.fromIncluded := by
  cases verdict with
  | ok payload => rfl
  | error failure =>
      show List.filter _ _ = List.filter _ (List.filter _ _)
      rw [List.filter_filter]
      apply List.filter_congr
      intro issue _
      rw [keeps_withoutIncludes, Bool.and_comm]

/-- An issue of a verdict that counts as found in an included document comes from one of its
findings. -/
theorem exists_finding_of_mem_survivors {policy : Policy} {verdict : Verdict} {issue : Issue}
    (hissue : issue ∈ policy.survivors input verdict) (hincluded : issue.fromIncluded = true) :
    ∃ finding ∈ Verdict.findings verdict, finding.toIssue input = issue := by
  obtain ⟨failure, rfl, hmem⟩ := exists_failure_of_mem_survivors hissue
  cases failure with
  | generic message =>
      rw [Failure.issues_generic, List.mem_singleton] at hmem
      rw [hmem] at hincluded
      contradiction
  | structured findings payload => exact List.mem_map.mp hmem

end Policy

/-! ## What a validator files -/

/-- Whether a path is the target of a reference in the document of a source, which lies in
some directory, and the file that it leads to from there can be read. -/
def Source.Refers (files : FileSystem) (source : Source) (directory target : String) : Prop :=
  ∃ document, source.load files = .ok document ∧ document.directory = directory ∧
    (∃ reference ∈ document.includes, reference.target = target) ∧
    ∃ text, files (Include.pathOf directory target) = .ok text

theorem filed_of_mem_validator {source : Source}
    (hopen : source.open? files = .ok (name, directory, text)) {finding : Finding}
    (hfinding : finding ∈ Verdict.findings (validator .builtin files source)) :
    finding.path = name ∨ source.Refers files directory finding.path := by
  unfold validator at hfinding
  cases hload : source.load files with
  | error failure =>
      -- a document that cannot be entered has one issue, in itself if it has a place
      rw [hload] at hfinding
      left
      rw [Source.load_of_open hopen] at hload
      split at hload
      · simp at hload
      · next error herror =>
        rw [← Except.error.inj hload] at hfinding
        rcases error.failure_cases name with ⟨_, hcase⟩ | ⟨_, _, _, hcase⟩
        · rw [hcase] at hfinding
          exact absurd hfinding List.not_mem_nil
        · rw [hcase] at hfinding
          rw [List.mem_singleton.mp hfinding]
  | ok document =>
      obtain ⟨_, _, _, hother, hdocument⟩ := Source.exists_of_load hload
      obtain ⟨rfl, hrest⟩ := Prod.mk.inj (Except.ok.inj (hopen.symm.trans hother))
      obtain ⟨rfl, rfl⟩ := Prod.mk.inj hrest
      obtain ⟨hname, hdirectory, -⟩ := Document.fields_of_load hdocument
      simp only [hload, Document.findings_verdict, Document.sortedFindings, List.mem_mergeSort,
        Document.findings, List.mem_flatMap] at hfinding
      obtain ⟨rule, hrule, hcheck⟩ := hfinding
      rcases Rule.isFiled_of_mem_check hrule hcheck with hown | ⟨reference, hmem, htarget, hread⟩
      · exact .inl (hown.trans hname)
      · rw [hdirectory, ← htarget] at hread
        exact .inr ⟨document, hload, hdirectory, ⟨reference, hmem, htarget.symm⟩, hread⟩

/-- The loader of documents, the reader of references and the report agree on paths.  For
standard input and for every path of a file that ends in a name: what is filed under the
name of the document is placed at the path of the input and does not count as included;
what is filed under a target is placed at the path that the target is read from, and counts
as included unless this is the path of the input in some spelling; a validator files
nothing else; and an issue that a policy hides for being in an included document is in a
file that a reference names and that is not the input. -/
theorem issues_placed (hnamed : input.IsNamed)
    (hopen : (input.sourceWith content).open? files = .ok (name, directory, text)) :
    let source := input.sourceWith content
    let verdict := validator .builtin files source
    (∀ finding : Finding, finding.path = name → (finding.toIssue input).IsOwn input) ∧
      (∀ finding : Finding,
        (finding.toIssue input).IsAt input (Include.pathOf directory finding.path)) ∧
      (∀ finding ∈ Verdict.findings verdict,
        finding.path = name ∨ source.Refers files directory finding.path) ∧
      ∀ policy : Policy, ∀ issue ∈ policy.survivors input verdict,
        issue ∉ policy.withoutIncludes.survivors input verdict →
        ∃ target, source.Refers files directory target ∧
          Path.equivalent (Include.pathOf directory target) input.path = false ∧
          issue.IsAt input (Include.pathOf directory target) := by
  intro source verdict
  have hopened := Input.opened_of_open? hopen
  have hat : ∀ finding : Finding,
      (finding.toIssue input).IsAt input (Include.pathOf directory finding.path) := by
    intro finding
    rw [hopened.directory]
    exact finding.isAt_toIssue input
  refine ⟨fun finding => hopened.isOwn_toIssue hnamed, hat,
    fun finding => filed_of_mem_validator hopen, ?_⟩
  intro policy issue hissue hhidden
  have hincluded : issue.fromIncluded = true := by
    rw [Policy.survivors_withoutIncludes, List.mem_filter, not_and] at hhidden
    simpa using hhidden hissue
  obtain ⟨finding, hfinding, rfl⟩ := Policy.exists_finding_of_mem_survivors hissue hincluded
  obtain ⟨_, -, -, hiff⟩ := hat finding
  -- what counts as included is not filed under the name, so a target is left
  rcases filed_of_mem_validator hopen hfinding with hpath | hrefers
  · obtain ⟨_, -, -, hown⟩ := hopened.isOwn_toIssue hnamed hpath
    rw [hincluded] at hown
    contradiction
  · exact ⟨finding.path, hrefers, hiff.mp hincluded, hat finding⟩

/-- A path with a `.` and repeated slashes: what is wrong in a file that the document refers
to is placed there, and left out without included documents. -/
theorem issues_placed_of_dots :
    let input := Input.file "./specs//./api.raml"
    let files := FileSystem.ofList
      [("./specs//./api.raml", .ok "#%RAML 1.0\ntitle: x\ntypes: !include t.yaml\n"),
        ("./specs/t.yaml", .ok "a: [\n")]
    let verdict := validator .builtin files (input.sourceWith "")
    (Verdict.findings verdict).map (·.path) = ["t.yaml"] ∧
      (∀ finding ∈ Verdict.findings verdict,
        (finding.toIssue input).IsAt input "./specs/t.yaml") ∧
      ∀ finding : Finding, finding.path = "api.raml" → (finding.toIssue input).IsOwn input := by
  intro input files verdict
  have hnamed : input.IsNamed := fun _ => by decide +kernel
  -- the document goes by its file name and refers to files from its directory
  have hopen : (input.sourceWith "").open? files =
      .ok ("api.raml", "./specs", "#%RAML 1.0\ntitle: x\ntypes: !include t.yaml\n") := by
    have hname : Path.fileName? input.path = some "api.raml" := by decide +kernel
    have hdirectory : Path.directory input.path = "./specs" := by decide +kernel
    show Except.ok (_, _, _) = _
    rw [hname, hdirectory, Option.getD_some]
  have hpaths : (Verdict.findings verdict).map (·.path) = ["t.yaml"] := by decide +kernel
  obtain ⟨hown, hat, -⟩ := issues_placed hnamed hopen
  refine ⟨hpaths, fun finding hfinding => ?_, hown⟩
  have hpath : finding.path = "t.yaml" := by
    have hmem := List.mem_map_of_mem (f := (·.path)) hfinding
    rw [hpaths] at hmem
    exact List.mem_singleton.mp hmem
  have hplace := hat finding
  rw [hpath] at hplace
  exact hplace

end RamlCheck
