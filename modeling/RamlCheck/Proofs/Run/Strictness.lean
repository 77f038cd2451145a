import RamlCheck.Proofs.Run.Steps

/-!
# Stricter policies

A policy decides which issues count, so it decides which inputs are valid and how a run
ends.  `policies_monotone` says how the verdicts, the issues, the payloads and the exits of
two policies compare: a stricter policy reports fewer issues in the same order, and a run
that succeeds leaves the very same transcript under every stricter policy.  A failure
without findings, and an error in an input itself, make the run fail under every policy.

## Strategy

* **One input.**  `Policy.Passes` says when nothing of a verdict is left to report, finding
  by finding.  An input that passes has the same outcome under every stricter policy.
* **A run that succeeds.**  Its issue count is zero at the end, hence all the time, hence
  every input passed (`steps_under_eq`).
* **A run that fails.**  The issue count of a run that nothing ends is the number of the
  issues of all its inputs (`issueCount_steps`), in both modes.
-/

namespace RamlCheck

/-! ## One input -/

/-- The payload that comes with a verdict, if one does. -/
def Verdict.payload? : Verdict → Option Json
  | .ok payload => some payload
  | .error failure => failure.payload

/-- What no policy leaves out: a failure without findings, or an error in the input
itself. -/
inductive Verdict.Rejects (input : Input) : Verdict → Prop
  | generic (message : String) : Rejects input (.error (.generic message))
  | ownError {findings : List Finding} {payload : Option Json} {finding : Finding}
      (hmem : finding ∈ findings) (herror : finding.isWarning = false)
      (hown : Path.equivalent (Path.join input.directory finding.path) input.path = true) :
      Rejects input (.error (.structured findings payload))

namespace Policy

/-- Whether a policy leaves out what a finding of an input makes: it reports no included
documents and the finding is not in the input itself, or it reports no warnings and the
finding is one. -/
def Suppresses (policy : Policy) (input : Input) (finding : Finding) : Prop :=
  policy.includes = false ∧
      Path.equivalent (Path.join input.directory finding.path) input.path = false ∨
    policy.warnings = false ∧ finding.isWarning = true

/-- Whether a policy leaves nothing of a verdict to report: the document was found in order,
or all that was found in it is left out. -/
inductive Passes (policy : Policy) (input : Input) : Verdict → Prop
  | ok (payload : Json) : Passes policy input (.ok payload)
  | structured {findings : List Finding} {payload : Option Json}
      (hall : ∀ finding ∈ findings, policy.Suppresses input finding) :
      Passes policy input (.error (.structured findings payload))

variable {policy stricter laxer : Policy} {input : Input} {verdict : Verdict}

theorem keeps_toIssue_iff (policy : Policy) (input : Input) (finding : Finding) :
    policy.keeps (finding.toIssue input) = true ↔ ¬ policy.Suppresses input finding := by
  have hwarning : (finding.toIssue input).isWarning = finding.isWarning := by
    cases hkind : finding.isWarning <;>
      simp [Issue.isWarning, Finding.toIssue, Issue.located, Finding.severity, hkind]
  have hincluded : (finding.toIssue input).fromIncluded =
      !Path.equivalent (Path.join input.directory finding.path) input.path := rfl
  unfold keeps Suppresses
  rw [hwarning, hincluded]
  cases policy.includes <;> cases policy.warnings <;> simp

theorem survivors_eq_nil_iff :
    policy.survivors input verdict = [] ↔ policy.Passes input verdict := by
  cases verdict with
  | ok payload => exact iff_of_true rfl (.ok payload)
  | error failure =>
      cases failure with
      | generic message =>
          have hsome : policy.survivors input (.error (.generic message)) ≠ [] := by
            simp [survivors, apply]
          exact iff_of_false hsome fun hpasses => by cases hpasses
      | structured findings payload =>
          have hsurvivors : policy.survivors input (.error (.structured findings payload)) =
              (findings.map (·.toIssue input)).filter policy.keeps := rfl
          rw [hsurvivors, List.filter_eq_nil_iff, List.forall_mem_map]
          simp only [keeps_toIssue_iff, not_not]
          constructor
          · exact .structured
          · intro hpasses
            cases hpasses with
            | structured hall => exact hall

theorem Suppresses.of_le (hle : stricter.le laxer) {finding : Finding}
    (hsuppresses : laxer.Suppresses input finding) : stricter.Suppresses input finding := by
  rcases hsuppresses with ⟨hincludes, hpath⟩ | ⟨hwarnings, hwarning⟩
  · left
    refine ⟨?_, hpath⟩
    by_contra htrue
    rw [hle.1 (Bool.not_eq_false _ ▸ htrue)] at hincludes
    contradiction
  · right
    refine ⟨?_, hwarning⟩
    by_contra htrue
    rw [hle.2 (Bool.not_eq_false _ ▸ htrue)] at hwarnings
    contradiction

theorem Passes.of_le (hle : stricter.le laxer) (hpasses : laxer.Passes input verdict) :
    stricter.Passes input verdict := by
  cases hpasses with
  | ok payload => exact .ok payload
  | structured hall => exact .structured fun finding hmem => (hall finding hmem).of_le hle

/-- A verdict is rejected under every policy exactly if it holds something that no policy
leaves out. -/
theorem rejects_iff :
    Verdict.Rejects input verdict ↔ ∀ policy : Policy, ¬ policy.Passes input verdict := by
  constructor
  · rintro (message | ⟨hmem, herror, hown⟩) policy hpasses
    · cases hpasses
    · cases hpasses with
      | structured hall =>
          rcases hall _ hmem with ⟨-, hpath⟩ | ⟨-, hwarning⟩
          · rw [hown] at hpath
            contradiction
          · rw [herror] at hwarning
            contradiction
  · intro hnever
    -- the strictest policy leaves out all that is a warning or not in the input itself
    have hstrictest := hnever { includes := false, warnings := false }
    cases verdict with
    | ok payload => exact absurd (.ok payload) hstrictest
    | error failure =>
        cases failure with
        | generic message => exact .generic message
        | structured findings payload =>
            have hsome : ∃ finding ∈ findings,
                ¬ Suppresses { includes := false, warnings := false } input finding := by
              by_contra hnone
              push Not at hnone
              exact hstrictest (.structured hnone)
            obtain ⟨finding, hmem, hkept⟩ := hsome
            simp only [Suppresses, true_and, not_or, Bool.not_eq_false, Bool.not_eq_true] at hkept
            exact .ownError hmem hkept.2 hkept.1

end Policy

namespace Outcome

variable {policy stricter laxer : Policy} {input : Input} {verdict : Verdict}

theorem isValid_evaluate_iff :
    (evaluate policy input verdict).isValid = true ↔ policy.Passes input verdict := by
  rw [isValid_evaluate, List.isEmpty_iff, Policy.survivors_eq_nil_iff]

/-- The outcome of an input that passes keeps the payload of the verdict. -/
theorem evaluate_of_passes (hpasses : policy.Passes input verdict) :
    evaluate policy input verdict = valid input verdict.payload? := by
  have hnone := Policy.survivors_eq_nil_iff.mpr hpasses
  cases verdict with
  | ok payload => rfl
  | error failure =>
      rw [evaluate, ofIssues, if_pos]
      · rfl
      · rw [List.isEmpty_iff]
        exact hnone

theorem payload_of_not_passes (hnot : ¬ policy.Passes input verdict) :
    (evaluate policy input verdict).payload = none := by
  have hsome := mt Policy.survivors_eq_nil_iff.mp hnot
  cases verdict with
  | ok payload => exact absurd (.ok payload) hnot
  | error failure =>
      rw [evaluate, ofIssues, if_neg]
      rw [List.isEmpty_iff]
      exact hsome

theorem payload_evaluate_iff {payload : Json} :
    (evaluate policy input verdict).payload = some payload ↔
      policy.Passes input verdict ∧ Verdict.payload? verdict = some payload := by
  by_cases hpasses : policy.Passes input verdict
  · rw [evaluate_of_passes hpasses, valid, and_iff_right hpasses]
  · rw [payload_of_not_passes hpasses]
    exact iff_of_false (Option.some_ne_none payload).symm fun hboth => hpasses hboth.1

theorem evaluate_of_le (hle : stricter.le laxer) (hpasses : laxer.Passes input verdict) :
    evaluate stricter input verdict = evaluate laxer input verdict := by
  rw [evaluate_of_passes hpasses, evaluate_of_passes (hpasses.of_le hle)]

theorem sublist_issues_of_le (hle : stricter.le laxer) (input : Input) (verdict : Verdict) :
    (evaluate stricter input verdict).issues.Sublist (evaluate laxer input verdict).issues := by
  rw [issues_evaluate, issues_evaluate]
  cases verdict with
  | ok payload => exact List.Sublist.refl _
  | error failure => exact Policy.sublist_apply_of_le hle _

end Outcome

namespace Run

variable {settings : Settings} {validator : Validator} {progress : Progress} {content : String}

/-! ## What a run counts -/

/-- A step that does not end the run counts the issues of its input. -/
theorem issueCount_step (hholds : progress.stdin.Holds content) (input : Input)
    (hfatal : (step settings validator progress input).fatal = none) :
    (step settings validator progress input).stdin.Holds content ∧
      (step settings validator progress input).reporter.issueCount =
        progress.reporter.issueCount +
          (outcomeWith settings validator content input).issues.length := by
  rcases step_cases settings validator input hholds with
    ⟨fatal, -, hended⟩ | ⟨stdin, hnext, -, hstep⟩
  · rw [hended] at hfatal
    contradiction
  · rw [hstep]
    exact ⟨hnext, Reporter.issueCount_report _ _⟩

/-- A run that nothing ends counts the issues of all its inputs. -/
theorem issueCount_steps (hholds : progress.stdin.Holds content) (hstart : progress.fatal = none)
    (inputs : List Input) (hfatal : (steps settings validator progress inputs).fatal = none) :
    (steps settings validator progress inputs).reporter.issueCount =
      progress.reporter.issueCount +
        (inputs.flatMap fun input =>
          (outcomeWith settings validator content input).issues).length := by
  induction inputs generalizing progress with
  | nil => rfl
  | cons input rest ih =>
      rw [steps, hstart] at hfatal ⊢
      have hnext := fatal_of_steps settings validator hfatal
      obtain ⟨hholds, hcount⟩ := issueCount_step hholds input hnext
      rw [ih hholds hnext hfatal, hcount, List.flatMap_cons, List.length_append, Nat.add_assoc]

theorem issueCount_le_step (progress : Progress) (input : Input) :
    progress.reporter.issueCount ≤
      (step settings validator progress input).reporter.issueCount := by
  unfold step
  split
  · exact Nat.le_refl _
  · show _ ≤ (progress.reporter.report _).1.issueCount
    rw [Reporter.issueCount_report]
    exact Nat.le_add_right _ _

theorem issueCount_le_steps (progress : Progress) (inputs : List Input) :
    progress.reporter.issueCount ≤
      (steps settings validator progress inputs).reporter.issueCount := by
  induction inputs generalizing progress with
  | nil => exact Nat.le_refl _
  | cons input rest ih =>
      rw [steps]
      cases progress.fatal with
      | some fatal => exact Nat.le_refl _
      | none => exact Nat.le_trans (issueCount_le_step progress input) (ih _)

/-- A run that is not cut short succeeds exactly if it has counted no issue. -/
theorem finish_result {exit : Exit} (hresult : (finish progress).result = .ok exit) :
    progress.fatal = none ∧ (exit = .success ↔ progress.reporter.issueCount = 0) := by
  have hfatal := fatal_of_finish hresult
  simp only [finish, hfatal] at hresult
  refine ⟨hfatal, ?_⟩
  cases hflush : progress.reporter.flush.2 with
  | some fatal =>
      simp only [hflush] at hresult
      contradiction
  | none =>
      simp only [hflush, Except.ok.injEq] at hresult
      rw [← hresult, ← Reporter.issueCount_flush, ← Reporter.hasIssues_eq_false_iff]
      cases progress.reporter.flush.1.hasIssues <;> simp

/-! ## A run that succeeds -/

end Run

/-- What a run is told, but for another policy. -/
def Settings.under (settings : Settings) (policy : Policy) : Settings :=
  { settings with policy }

namespace Run

variable {settings : Settings} {validator : Validator} {progress : Progress} {content : String}
  {stricter laxer : Policy}

/-- A step that counts no issue is the same step under a stricter policy. -/
theorem step_under_eq (hle : stricter.le laxer) {input : Input}
    (hcount : (step (settings.under laxer) validator progress input).reporter.issueCount = 0) :
    step (settings.under stricter) validator progress input =
      step (settings.under laxer) validator progress input := by
  unfold step at hcount ⊢
  cases hsource : sourceOf progress.stdin input with
  | mk result stdin =>
      cases result with
      | error fatal => rfl
      | ok source =>
          simp only [hsource, Reporter.issueCount_report, Nat.add_eq_zero_iff,
            List.length_eq_zero_iff] at hcount
          have hpasses : laxer.Passes input (validator source) := by
            rw [← Policy.survivors_eq_nil_iff, ← Outcome.issues_evaluate]
            exact hcount.2
          have hsame : Outcome.evaluate (settings.under stricter).policy input (validator source) =
              Outcome.evaluate (settings.under laxer).policy input (validator source) :=
            Outcome.evaluate_of_le hle hpasses
          simp only [hsame]

theorem steps_under_eq (hle : stricter.le laxer) {inputs : List Input}
    (hcount :
      (steps (settings.under laxer) validator progress inputs).reporter.issueCount = 0) :
    steps (settings.under stricter) validator progress inputs =
      steps (settings.under laxer) validator progress inputs := by
  induction inputs generalizing progress with
  | nil => rfl
  | cons input rest ih =>
      rw [steps] at hcount
      rw [steps, steps]
      cases hfatal : progress.fatal with
      | some fatal => rfl
      | none =>
          rw [hfatal] at hcount
          -- the count never falls, so the first step has counted nothing either
          have hfirst : (step (settings.under laxer) validator progress
              input).reporter.issueCount = 0 :=
            Nat.eq_zero_of_le_zero (Nat.le_trans (issueCount_le_steps _ rest) (Nat.le_of_eq hcount))
          show steps _ _ _ rest = steps _ _ _ rest
          rw [step_under_eq hle hfirst]
          exact ih hcount

/-- A run that succeeds leaves the same transcript under every stricter policy. -/
theorem run_under_eq (hle : stricter.le laxer) {arguments : List String} {stdin : StandardInput}
    {sink : Sink}
    (hsuccess : (run (settings.under laxer) validator arguments stdin sink).result = .ok .success) :
    run (settings.under stricter) validator arguments stdin sink =
      run (settings.under laxer) validator arguments stdin sink := by
  by_cases hinputs : Input.ofRun arguments stdin = []
  · rw [run_eq_showUsage _ _ _ _ _ hinputs, run_eq_showUsage _ _ _ _ _ hinputs]
    rfl
  · rw [run_eq_finish _ _ _ _ _ hinputs] at hsuccess ⊢
    rw [run_eq_finish _ _ _ _ _ hinputs]
    have hcount := (finish_result hsuccess).2.mp rfl
    have hstart : atStart (settings.under stricter) stdin sink =
        atStart (settings.under laxer) stdin sink := rfl
    rw [hstart, steps_under_eq hle hcount]

/-! ## A run that fails -/

/-- A run in front of some inputs that nothing is going to end: all that is written is
taken, and standard input can be read if one of the inputs asks for it. -/
structure Unhindered (content : String) (inputs : List Input) (progress : Progress) : Prop where
  fatal : progress.fatal = none
  room : progress.reporter.sink.room = none
  readable : ∀ input ∈ inputs, input.origin = .standardInput → progress.stdin.text.1 = .ok content

theorem Unhindered.step {input : Input} {rest : List Input}
    (hunhindered : Unhindered content (input :: rest) progress) :
    Unhindered content rest (step settings validator progress input) := by
  obtain ⟨hfatal, hroom, hreadable⟩ := hunhindered
  rw [List.forall_mem_cons] at hreadable
  have hreport := fun outcome => Reporter.report_boundless hroom outcome
  cases horigin : input.origin with
  | file =>
      have hsource : sourceOf progress.stdin input = (.ok (.file input.path), progress.stdin) := by
        simp only [sourceOf, horigin]
      simp only [Run.step, hsource]
      exact ⟨(hreport _).1, (hreport _).2, hreadable.2⟩
  | standardInput =>
      have htext := hreadable.1 horigin
      have hsource : sourceOf progress.stdin input =
          (.ok (.content input.name content), progress.stdin.text.2) := by
        simp only [sourceOf, horigin, htext, Except.map]
      simp only [Run.step, hsource]
      exact ⟨(hreport _).1, (hreport _).2, fun _ _ _ => StandardInput.text_text htext⟩

theorem Unhindered.steps {inputs : List Input} (hunhindered : Unhindered content inputs progress) :
    Unhindered content [] (steps settings validator progress inputs) := by
  induction inputs generalizing progress with
  | nil => exact hunhindered
  | cons input rest ih =>
      rw [Run.steps, hunhindered.fatal]
      exact ih hunhindered.step

theorem exists_exit (hfatal : progress.fatal = none) (hroom : progress.reporter.sink.room = none) :
    ∃ exit, (finish progress).result = .ok exit := by
  simp only [finish, hfatal, Reporter.flush_boundless hroom]
  exact ⟨_, rfl⟩

theorem eq_standard_of_mem_ofRun {arguments : List String} {stdin : StandardInput}
    {input : Input} (hinput : input ∈ Input.ofRun arguments stdin)
    (horigin : input.origin = .standardInput) : input = .standard := by
  unfold Input.ofRun at hinput
  rcases List.mem_append.mp hinput with hfront | hnamed
  · split at hfront
    · exact List.mem_singleton.mp hfront
    · exact absurd hfront List.not_mem_nil
  · obtain ⟨argument, -, rfl⟩ := List.mem_map.mp hnamed
    unfold Input.ofArgument at horigin ⊢
    split at horigin
    · next hplaceholder => rw [if_pos hplaceholder]
    · contradiction

section

variable {arguments : List String} {stdin : StandardInput} {input : Input}
  (hholds : stdin.Holds content) (hinput : input ∈ Input.ofRun arguments stdin)
  (hrejects : Verdict.Rejects input (validator (input.sourceWith content)))

include hholds hinput hrejects

/-- A run with an input that no policy passes does not succeed, even if it is cut short. -/
theorem result_ne_success (settings : Settings) (sink : Sink) :
    (run settings validator arguments stdin sink).result ≠ .ok .success := by
  intro hsuccess
  rw [run_eq_finish _ _ _ _ _ (List.ne_nil_of_mem hinput)] at hsuccess
  obtain ⟨hfatal, hexit⟩ := finish_result hsuccess
  have hstart : (atStart settings stdin sink).stdin.Holds content := hholds
  have hcount := hexit.mp rfl
  rw [issueCount_steps hstart rfl _ hfatal, Nat.add_eq_zero_iff, List.length_eq_zero_iff,
    List.flatMap_eq_nil_iff] at hcount
  have hnone := hcount.2 input hinput
  rw [outcomeWith, Outcome.issues_evaluate, Policy.survivors_eq_nil_iff] at hnone
  exact Policy.rejects_iff.mp hrejects _ hnone

/-- If nothing cuts it short, a run with an input that no policy passes fails. -/
theorem result_eq_issues (settings : Settings)
    (hreadable : Input.standard ∈ Input.ofRun arguments stdin → stdin.text.1 = .ok content) :
    (run settings validator arguments stdin .boundless).result = .ok .issues := by
  have hnot := result_ne_success hholds hinput hrejects settings .boundless
  have hstart : Unhindered content (Input.ofRun arguments stdin)
      (atStart settings stdin .boundless) := by
    refine ⟨rfl, rfl, fun other hother horigin => hreadable ?_⟩
    rw [← eq_standard_of_mem_ofRun hother horigin]
    exact hother
  rw [run_eq_finish _ _ _ _ _ (List.ne_nil_of_mem hinput)] at hnot ⊢
  have hend : Unhindered content [] (steps settings validator _ _) := hstart.steps
  obtain ⟨exit, hexit⟩ := exists_exit hend.fatal hend.room
  rw [hexit] at hnot ⊢
  cases exit with
  | success => exact absurd rfl hnot
  | issues => rfl

end

/-- What a policy decides, for one input and for a run.  An input is valid exactly if its
verdict passes the policy, it has issues exactly if it is not valid, and the payload of the
verdict is kept exactly if it is.  Under a stricter policy an input has fewer issues in the
same order, and a run that succeeds under the laxer policy is the same run.  And exactly what
holds a failure without findings or an error in the input itself passes no policy: a run with
such an input fails, whatever it is told. -/
theorem policies_monotone (settings : Settings) (validator : Validator) (arguments : List String)
    (stdin : StandardInput) :
    (∀ policy input verdict,
      ((Outcome.evaluate policy input verdict).status = .valid ↔
        Policy.Passes policy input verdict) ∧
      ((Outcome.evaluate policy input verdict).issues = [] ↔
        (Outcome.evaluate policy input verdict).status = .valid) ∧
      ∀ payload, (Outcome.evaluate policy input verdict).payload = some payload ↔
        (Outcome.evaluate policy input verdict).status = .valid ∧
          Verdict.payload? verdict = some payload) ∧
    (∀ stricter laxer : Policy, stricter.le laxer →
      (∀ input verdict, (Outcome.evaluate stricter input verdict).issues.Sublist
        (Outcome.evaluate laxer input verdict).issues) ∧
      ∀ sink, (run (settings.under laxer) validator arguments stdin sink).result = .ok .success →
        run (settings.under stricter) validator arguments stdin sink =
          run (settings.under laxer) validator arguments stdin sink) ∧
    (∀ input verdict, Verdict.Rejects input verdict ↔
      ∀ policy : Policy, ¬ policy.Passes input verdict) ∧
    ∀ content, stdin.Holds content → ∀ input ∈ Input.ofRun arguments stdin,
      Verdict.Rejects input (validator (input.sourceWith content)) →
      ∀ policy,
        (∀ sink, (run (settings.under policy) validator arguments stdin sink).result ≠
          .ok .success) ∧
        ((Input.standard ∈ Input.ofRun arguments stdin → stdin.text.1 = .ok content) →
          (run (settings.under policy) validator arguments stdin .boundless).result =
            .ok .issues) := by
  -- validity is what a verdict passes by; the rest follows part by part
  have hstatus : ∀ policy input verdict,
      (Outcome.evaluate policy input verdict).status = .valid ↔
        Policy.Passes policy input verdict := by
    intro policy input verdict
    rw [← Outcome.isValid_evaluate_iff, Outcome.isValid, decide_eq_true_iff]
  refine ⟨fun policy input verdict => ⟨hstatus policy input verdict, ?_, fun payload => ?_⟩,
    fun stricter laxer hle => ⟨Outcome.sublist_issues_of_le hle, fun sink => run_under_eq hle⟩,
    fun input verdict => Policy.rejects_iff, ?_⟩
  · rw [hstatus, Outcome.issues_evaluate, Policy.survivors_eq_nil_iff]
  · rw [hstatus, Outcome.payload_evaluate_iff]
  · intro content hholds input hinput hrejects policy
    exact ⟨result_ne_success hholds hinput hrejects (settings.under policy),
      result_eq_issues hholds hinput hrejects (settings.under policy)⟩

/-- A warning in one input and an error in another: without warnings the first input passes,
and a run with both fails also without included documents. -/
theorem policies_monotone_of_warning :
    let finding := fun path isWarning =>
      ({ path, line := 1, column := 1, message := "x", isWarning } : Finding)
    let validator : Validator := fun source =>
      if source = .file "a.raml" then .error (.structured [finding "a.raml" true] (some .null))
      else .error (.structured [finding "b.raml" true, finding "b.raml" false] none)
    let settings : Settings :=
      { policy := .everything, mode := .structured, theme := .plain, usage := "" }
    let laxer : Policy := { includes := true, warnings := false }
    let stricter : Policy := { includes := false, warnings := false }
    stricter.le laxer ∧
      (run (settings.under laxer) validator ["a.raml"] .unread .boundless).result =
        .ok .success ∧
      run (settings.under stricter) validator ["a.raml"] .unread .boundless =
        run (settings.under laxer) validator ["a.raml"] .unread .boundless ∧
      StandardInput.unread.Holds "" ∧
      Verdict.Rejects (.file "b.raml") (validator (.file "b.raml")) ∧
      (run (settings.under stricter) validator ["a.raml", "b.raml"] .unread .boundless).result =
        .ok .issues := by
  intro finding validator settings laxer stricter
  have hle : stricter.le laxer := ⟨fun _ => rfl, id⟩
  have hsuccess : (run (settings.under laxer) validator ["a.raml"] .unread .boundless).result =
      .ok .success := by decide +kernel
  have hholds : StandardInput.unread.Holds "" := StandardInput.holds_of_text (by decide +kernel)
  -- no policy passes over an error of the input itself
  have hrejects : Verdict.Rejects (.file "b.raml") (validator (.file "b.raml")) :=
    .ownError (List.mem_cons_of_mem _ (List.mem_singleton_self (finding "b.raml" false))) rfl
      (by decide +kernel)
  obtain ⟨-, hmonotone, -⟩ := policies_monotone settings validator ["a.raml"] .unread
  obtain ⟨-, -, -, hfails⟩ := policies_monotone settings validator ["a.raml", "b.raml"] .unread
  have hinput : Input.file "b.raml" ∈ Input.ofRun ["a.raml", "b.raml"] .unread := by decide
  have hnamed : Input.standard ∉ Input.ofRun ["a.raml", "b.raml"] .unread := by decide
  exact ⟨hle, hsuccess, (hmonotone stricter laxer hle).2 .boundless hsuccess, hholds, hrejects,
    (hfails "" hholds _ hinput hrejects stricter).2 fun hstandard => absurd hstandard hnamed⟩

end Run

end RamlCheck
