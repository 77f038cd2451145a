import RamlCheck.Proofs.Document.Reading
import RamlCheck.Proofs.Issue.Place
import RamlCheck.Proofs.Run.Text

/-!
# A report without included documents

A run can be told to leave out what is found in included documents.  If it reports as a
text, nothing that included files hold then shows: two file systems that differ only in what
such files hold leave the same transcript (`run_eq_of_isApart`).  Whether they can be read
does show, since that is found at the reference.

## Strategy

* **The run.**  A text tells the issues of an input that are reported and not its payload,
  so a run depends on its validator only through `Policy.survivors` (`run_congr`, from one
  step to all of them).
* **The sort.**  Findings are sorted before any are left out.  They may as well be left out
  before they are sorted (`filter_mergeSort`), rule by rule.
* **The rule about references.**  Where two files differ, what this rule finds in either is
  filed under the target, hence placed at the path of the file, hence left out
  (`filter_includeFinding?`).
-/

namespace RamlCheck

/-! ## What a run depends on -/

namespace Run

theorem exists_sourceWith {stdin rest : StandardInput} {input : Input} {source : Source}
    (hsource : sourceOf stdin input = (.ok source, rest)) :
    ∃ content, source = input.sourceWith content := by
  cases horigin : input.origin with
  | file =>
      simp only [sourceOf, horigin, Prod.mk.injEq, Except.ok.injEq] at hsource
      exact ⟨"", by simp only [Input.sourceWith, horigin, ← hsource.1]⟩
  | standardInput =>
      simp only [sourceOf, horigin, Prod.mk.injEq] at hsource
      cases htext : stdin.text.1 with
      | error fatal =>
          rw [htext] at hsource
          exact absurd hsource.1 (by simp [Except.map])
      | ok text =>
          rw [htext] at hsource
          refine ⟨text, ?_⟩
          simp only [Input.sourceWith, horigin]
          exact (Except.ok.inj hsource.1).symm

variable {settings : Settings} {first second : Validator}

/-- Whether the same issues of an input are reported under two validators, whatever
standard input holds. -/
def SameIssues (settings : Settings) (first second : Validator) (input : Input) : Prop :=
  ∀ content, settings.policy.survivors input (first (input.sourceWith content)) =
    settings.policy.survivors input (second (input.sourceWith content))

theorem step_congr {progress : Progress} (hmode : progress.reporter.mode = .text) {input : Input}
    (hsame : SameIssues settings first second input) :
    step settings first progress input = step settings second progress input := by
  unfold step
  cases hsource : sourceOf progress.stdin input with
  | mk result rest =>
      cases result with
      | error fatal => rfl
      | ok source =>
          obtain ⟨content, rfl⟩ := exists_sourceWith hsource
          have hreport : progress.reporter.report
              (.evaluate settings.policy input (first (input.sourceWith content))) =
              progress.reporter.report
                (.evaluate settings.policy input (second (input.sourceWith content))) := by
            apply Reporter.report_congr hmode
            · rw [Outcome.input_evaluate, Outcome.input_evaluate]
            · rw [Outcome.isValid_evaluate, Outcome.isValid_evaluate, hsame content]
            · rw [Outcome.issues_evaluate, Outcome.issues_evaluate, hsame content]
          simp only [hreport]

theorem steps_congr {progress : Progress} (hmode : progress.reporter.mode = .text)
    {inputs : List Input} (hsame : ∀ input ∈ inputs, SameIssues settings first second input) :
    steps settings first progress inputs = steps settings second progress inputs := by
  induction inputs generalizing progress with
  | nil => rfl
  | cons input rest ih =>
      -- a step keeps the mode, without which the payloads would show
      rw [List.forall_mem_cons] at hsame
      rw [steps, steps]
      cases progress.fatal with
      | some fatal => rfl
      | none =>
          have hnext := (mode_step settings first progress input).trans hmode
          rw [step_congr hmode hsame.1] at hnext ⊢
          exact ih hnext hsame.2

/-- A run that reports as text depends on its validator only through the issues that are
reported. -/
theorem run_congr (hmode : settings.mode = .text) {arguments : List String}
    {stdin : StandardInput} (sink : Sink)
    (hsame : ∀ input ∈ Input.ofRun arguments stdin, SameIssues settings first second input) :
    run settings first arguments stdin sink = run settings second arguments stdin sink := by
  by_cases hinputs : Input.ofRun arguments stdin = []
  · rw [run_eq_showUsage _ _ _ _ _ hinputs, run_eq_showUsage _ _ _ _ _ hinputs]
  · rw [run_eq_finish _ _ _ _ _ hinputs, run_eq_finish _ _ _ _ _ hinputs]
    have hstart : (atStart settings stdin sink).reporter.mode = .text := hmode
    rw [steps_congr hstart hsame]

end Run

/-! ## Included files -/

/-- Whether two file systems differ at most in what files hold that can be read and are not
some input.  Standard input is no file, even if there is one of its name. -/
def Input.IsApart (files others : FileSystem) (input : Input) : Prop :=
  ∀ path, files path = others path ∨
    (∃ text other, files path = .ok text ∧ others path = .ok other) ∧
      (input = .standard ∨ Path.equivalent path input.path = false)

/-- A file with the name of standard input has no format, so nothing is wrong in it. -/
theorem Rule.contentFault?_standard {target : String}
    (htarget : Path.equivalent target Input.standardName = true) (content : String) :
    contentFault? target content = none := by
  have hcomponents : Path.components target = Path.components Input.standardName :=
    of_decide_eq_true htarget
  have hextension : Path.extension? target = none := by
    rw [Path.extension?, Path.fileName?, hcomponents]
    decide +kernel
  simp only [contentFault?, Include.isYamlTarget, Include.isJsonTarget, Include.hasExtension,
    hextension, Bool.false_eq_true, if_false]

section

variable {files others : FileSystem} {policy : Policy} {input : Input} {document : Document}

/-- Whether the issue that a finding makes is reported. -/
def Policy.keepsFinding (policy : Policy) (input : Input) (finding : Finding) : Bool :=
  policy.keeps (finding.toIssue input)

/-- What is found in a file that is not the input is left out without included documents. -/
theorem Policy.keepsFinding_eq_false (hincludes : policy.includes = false) {finding : Finding}
    (hpath : Path.equivalent (Path.join input.directory finding.path) input.path = false) :
    policy.keepsFinding input finding = false := by
  obtain ⟨_, -, -, hincluded⟩ := finding.isAt_toIssue input
  rw [keepsFinding, keeps, hincludes, hincluded.mpr hpath]
  rfl

/-- What is found inside of a file that is not the input is left out. -/
theorem Rule.filter_includeFinding? (hincludes : policy.includes = false)
    (hdirectory : document.directory = input.directory) {reference : Include} {text : String}
    (hread : files (Include.pathOf document.directory reference.target) = .ok text)
    (hother : input = .standard ∨
      Path.equivalent (Include.pathOf document.directory reference.target) input.path = false) :
    (includeFinding? files document reference).filter (policy.keepsFinding input) = none := by
  rw [Option.filter_eq_none_iff]
  rintro finding hsome
  simp only [includeFinding?, hread] at hsome
  obtain ⟨fault, hfault, rfl⟩ := Option.map_eq_some_iff.mp hsome
  rw [Bool.not_eq_true]
  apply Policy.keepsFinding_eq_false hincludes
  rw [← hdirectory]
  rcases hother with rfl | hother
  · -- a target can be spelt like standard input, but then it has no extension
    by_contra hsame
    have htarget : Path.equivalent reference.target Input.standardName = true := by
      rw [Bool.not_eq_false, hdirectory] at hsame
      rwa [show Input.directory .standard = "" from rfl, Path.join_empty] at hsame
    rw [contentFault?_standard htarget] at hfault
    contradiction
  · exact hother

theorem Rule.filter_includeFinding?_congr (hincludes : policy.includes = false)
    (hdirectory : document.directory = input.directory) (hapart : input.IsApart files others)
    (reference : Include) :
    (includeFinding? files document reference).filter (policy.keepsFinding input) =
      (includeFinding? others document reference).filter (policy.keepsFinding input) := by
  rcases hapart (Include.pathOf document.directory reference.target) with
    hsame | ⟨⟨text, other, htext, hother⟩, hpath⟩
  · rw [includeFinding?_congr hsame]
  · rw [filter_includeFinding? hincludes hdirectory htext hpath,
      filter_includeFinding? hincludes hdirectory hother hpath]

theorem Document.filter_findings_congr {registry : Registry} (hregistry : registry.ReadsReferences)
    (hincludes : policy.includes = false) (hdirectory : document.directory = input.directory)
    (hapart : input.IsApart files others) :
    (document.findings registry files).filter (policy.keepsFinding input) =
      (document.findings registry others).filter (policy.keepsFinding input) := by
  unfold findings
  rw [List.filter_flatMap, List.filter_flatMap]
  apply List.flatMap_congr
  intro rule hrule
  rcases hregistry rule hrule with hnone | rfl
  · rw [hnone files others document]
  · show (document.includes.filterMap _).filter _ = (document.includes.filterMap _).filter _
    rw [List.filter_filterMap, List.filter_filterMap]
    apply List.filterMap_congr
    intro reference _
    exact Rule.filter_includeFinding?_congr hincludes hdirectory hapart reference

/-- The issues of a document that are reported are those of the findings that are kept,
which may be sorted afterwards. -/
theorem Document.survivors_verdict (document : Document) (registry : Registry)
    (files : FileSystem) (policy : Policy) (input : Input) :
    policy.survivors input (document.verdict registry files) =
      (((document.findings registry files).filter (policy.keepsFinding input)).mergeSort
        (Finding.le document.name)).map (·.toIssue input) := by
  have hsurvivors : policy.survivors input (document.verdict registry files) =
      policy.apply ((document.sortedFindings registry files).map (·.toIssue input)) := by
    unfold verdict
    cases document.sortedFindings registry files with
    | nil => rfl
    | cons finding rest => rfl
  calc policy.survivors input (document.verdict registry files)
      _ = policy.apply ((document.sortedFindings registry files).map (·.toIssue input)) :=
        hsurvivors
      _ = ((document.sortedFindings registry files).filter (policy.keepsFinding input)).map
          (·.toIssue input) := List.filter_map
      _ = (((document.findings registry files).filter (policy.keepsFinding input)).mergeSort
          (Finding.le document.name)).map (·.toIssue input) := by
        rw [sortedFindings, filter_mergeSort (Finding.le_trans document.name)
          (Finding.le_total document.name)]

theorem Document.directory_of_load {content : String}
    (hload : (input.sourceWith content).load files = .ok document) :
    document.directory = input.directory := by
  obtain ⟨_, _, _, hopen, hdocument⟩ := Source.exists_of_load hload
  exact (fields_of_load hdocument).2.1.trans (Input.opened_of_open? hopen).directory

theorem Input.IsApart.load_congr (hapart : input.IsApart files others) (content : String) :
    (input.sourceWith content).load files = (input.sourceWith content).load others := by
  apply Source.load_congr
  intro path hpath
  cases horigin : input.origin with
  | file =>
      simp only [Input.sourceWith, horigin, Source.path?, Option.mem_def, Option.some.injEq]
        at hpath
      rw [← hpath]
      rcases hapart input.path with hsame | ⟨-, rfl | hother⟩
      · exact hsame
      · contradiction
      · rw [Path.equivalent_self] at hother
        contradiction
  | standardInput =>
      simp only [Input.sourceWith, horigin, Source.path?, Option.mem_def, reduceCtorEq] at hpath

/-- The issues of an input that are reported without included documents do not depend on
what included files hold. -/
theorem survivors_congr {registry : Registry} (hregistry : registry.ReadsReferences)
    (hincludes : policy.includes = false) (hapart : input.IsApart files others)
    (content : String) :
    policy.survivors input (validator registry files (input.sourceWith content)) =
      policy.survivors input (validator registry others (input.sourceWith content)) := by
  unfold validator
  rw [← hapart.load_congr content]
  cases hload : (input.sourceWith content).load files with
  | error failure => rfl
  | ok document =>
      have hdirectory := Document.directory_of_load hload
      show policy.survivors input (document.verdict registry files) =
        policy.survivors input (document.verdict registry others)
      rw [document.survivors_verdict, document.survivors_verdict,
        document.filter_findings_congr hregistry hincludes hdirectory hapart]

end

namespace Run

/-- A run that reports as text and leaves out included documents does not tell what included
files hold: two file systems that differ only in the texts of files that are no input of the
run leave the same transcript. -/
theorem run_eq_of_isApart {settings : Settings} (hmode : settings.mode = .text)
    (hincludes : settings.policy.includes = false) {registry : Registry}
    (hregistry : registry.ReadsReferences) {arguments : List String} {stdin : StandardInput}
    {files others : FileSystem}
    (hapart : ∀ input ∈ Input.ofRun arguments stdin, input.IsApart files others) (sink : Sink) :
    run settings (validator registry files) arguments stdin sink =
      run settings (validator registry others) arguments stdin sink := by
  apply run_congr hmode
  intro input hinput content
  exact survivors_congr hregistry hincludes (hapart input hinput) content

/-- An included file that is in order or has an error at its end: the validator tells the two
apart, the run without included documents does not. -/
theorem run_eq_of_faulty_file :
    let files := FileSystem.ofList
      [("api.raml", .ok "#%RAML 1.0\ntitle: x\ntypes: !include t.yaml\n"),
        ("t.yaml", .ok "a: 1\n")]
    let others := files.replace "t.yaml" (.ok "a: [\n")
    let settings := textSettings Policy.everything.withoutIncludes ""
    Verdict.findings (validator .builtin files (.file "api.raml")) ≠
        Verdict.findings (validator .builtin others (.file "api.raml")) ∧
      run settings (validator .builtin files) ["api.raml"] .unread .boundless =
        run settings (validator .builtin others) ["api.raml"] .unread .boundless := by
  intro files others settings
  have hlength : (Verdict.findings (validator .builtin files (.file "api.raml"))).length = 0 ∧
      (Verdict.findings (validator .builtin others (.file "api.raml"))).length = 1 := by
    decide +kernel
  refine ⟨fun hsame => ?_, ?_⟩
  · rw [hsame] at hlength
    omega
  · apply run_eq_of_isApart rfl rfl Registry.readsReferences_builtin
    intro input hinput path
    obtain rfl : input = .file "api.raml" := List.mem_singleton.mp hinput
    by_cases hpath : path = "t.yaml"
    · subst hpath
      exact .inr ⟨⟨"a: 1\n", "a: [\n", rfl, rfl⟩, .inr (by decide +kernel)⟩
    · exact .inl (files.replace_of_ne _ hpath).symm

end Run

end RamlCheck
