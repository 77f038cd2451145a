import RamlCheck.Proofs.Report.Calls
import RamlCheck.Run.Basic

/-!
# What a step of a run can do

A run takes its inputs one after another, and each step reads standard input, asks the
validator and reports.  `step_cases` lists what a step can do: it ends the run because
standard input cannot be read, or it validates the source of its input and reports the
outcome.  Which text standard input holds is settled before the run (`Holds`), so every
input that reads it is validated with the same text.
-/

namespace RamlCheck

/-! ## Standard input -/

namespace StandardInput

/-- Whether standard input holds some text, provided that it can be read. -/
def Holds (stdin : StandardInput) (content : String) : Prop :=
  ∀ text, stdin.text.1 = .ok text → text = content

/-- Standard input that was read ahead and has something to offer. -/
def Offers (stdin : StandardInput) : Prop :=
  stdin.interactive = false ∧ ∃ text, stdin.content = some text ∧ text ≠ ""

theorem holds_of_text {stdin : StandardInput} {content : String}
    (htext : stdin.text.1 = .ok content) : stdin.Holds content := by
  intro text hother
  rw [htext] at hother
  exact (Except.ok.inj hother).symm

/-- What has been read once is read again. -/
theorem text_text {stdin : StandardInput} {content : String}
    (htext : stdin.text.1 = .ok content) : stdin.text.2.text.1 = .ok content := by
  unfold text at htext
  split at htext
  · next text hcontent =>
    rw [text_of_content hcontent, text_of_content hcontent]
    exact htext
  · next hcontent =>
    split at htext
    · next text hread =>
      have hafter : stdin.text.2 =
          { stdin with content := some text, pending := ByteArray.empty } := by
        simp only [StandardInput.text, hcontent, hread]
      rw [hafter, text_of_content rfl]
      exact htext
    · simp at htext

theorem isAvailable_iff {stdin : StandardInput} {arguments : List String}
    (hplaceholder : Input.placeholder ∉ arguments) :
    stdin.isAvailable arguments = true ↔ stdin.Offers := by
  have hnone : arguments.contains Input.placeholder = false := by simpa using hplaceholder
  simp only [isAvailable, Offers, hnone, Bool.or_false, Bool.and_eq_true, Bool.not_eq_true',
    Option.any_eq_true, decide_eq_true_eq]

end StandardInput

instance (stdin : StandardInput) : Decidable stdin.Offers :=
  decidable_of_iff (stdin.isAvailable [] = true) (StandardInput.isAvailable_iff (by simp))

/-- The inputs of a run: standard input in front if it was read ahead, has something to
offer and no `-` says where it belongs, then what the arguments name. -/
def Input.ofRun (arguments : List String) (stdin : StandardInput) : List Input :=
  (if stdin.Offers ∧ Input.placeholder ∉ arguments then [Input.standard] else []) ++
    arguments.map Input.ofArgument

theorem Input.resolve_eq_ofRun (arguments : List String) (stdin : StandardInput) :
    Input.resolve arguments (stdin.isAvailable arguments) = Input.ofRun arguments stdin := by
  unfold Input.ofRun
  by_cases hplaceholder : Input.placeholder ∈ arguments
  · have hcontains : arguments.contains Input.placeholder = true := by simpa using hplaceholder
    rw [if_neg fun hboth => hboth.2 hplaceholder]
    simp only [Input.resolve, hcontains, Bool.not_true, Bool.and_false, Bool.false_eq_true,
      if_false, List.nil_append]
  · have hcontains : arguments.contains Input.placeholder = false := by simpa using hplaceholder
    have havailable : stdin.isAvailable arguments = true ↔ stdin.Offers :=
      StandardInput.isAvailable_iff hplaceholder
    by_cases hoffers : stdin.Offers
    · rw [if_pos ⟨hoffers, hplaceholder⟩]
      simp only [Input.resolve, havailable.mpr hoffers, hcontains, Bool.not_false, Bool.and_self,
        if_true, List.singleton_append]
    · rw [if_neg fun hboth => hoffers hboth.1]
      have hunavailable := Bool.eq_false_iff.mpr fun htrue => hoffers (havailable.mp htrue)
      simp only [Input.resolve, hunavailable, Bool.false_and, Bool.false_eq_true, if_false,
        List.nil_append]

/-! ## Sources and outcomes -/

/-- The source that an input is validated from when standard input holds some text. -/
def Input.sourceWith (content : String) (input : Input) : Source :=
  match input.origin with
  | .file => .file input.path
  | .standardInput => .content input.name content

/-- The issues of an input that a policy keeps, by what a validator says about it. -/
def Policy.survivors (policy : Policy) (input : Input) : Verdict → List Issue
  | .ok _ => []
  | .error failure => policy.apply (failure.issues input)

/-- An issue that is reported comes from the failure of its input. -/
theorem Policy.exists_failure_of_mem_survivors {policy : Policy} {input : Input}
    {verdict : Verdict} {issue : Issue}
    (hissue : issue ∈ policy.survivors input verdict) :
    ∃ failure, verdict = .error failure ∧ issue ∈ failure.issues input := by
  cases verdict with
  | ok payload => exact absurd hissue List.not_mem_nil
  | error failure => exact ⟨failure, rfl, List.mem_of_mem_filter hissue⟩

theorem Outcome.issues_evaluate (policy : Policy) (input : Input) (verdict : Verdict) :
    (evaluate policy input verdict).issues = policy.survivors input verdict := by
  cases verdict with
  | ok payload => rfl
  | error failure => exact issues_ofIssues ..

theorem Outcome.isValid_evaluate (policy : Policy) (input : Input) (verdict : Verdict) :
    (evaluate policy input verdict).isValid = (policy.survivors input verdict).isEmpty := by
  cases verdict with
  | ok payload => rfl
  | error failure => exact isValid_ofIssues ..

theorem Outcome.input_evaluate (policy : Policy) (input : Input) (verdict : Verdict) :
    (evaluate policy input verdict).input = input := by
  cases verdict with
  | ok payload => rfl
  | error failure =>
      simp only [evaluate, ofIssues]
      split <;> rfl

namespace Run

/-! ## A step -/

variable (settings : Settings) (validator : Validator)

/-- What a run says about an input when standard input holds some text. -/
def outcomeWith (content : String) (input : Input) : Outcome :=
  .evaluate settings.policy input (validator (input.sourceWith content))

/-- A step ends the run at standard input that cannot be read, or it validates the
source of its input and reports the outcome. -/
theorem step_cases {content : String} {progress : Progress} (input : Input)
    (hholds : progress.stdin.Holds content) :
    (∃ fatal, progress.stdin.text.1 = .error fatal ∧
      step settings validator progress input =
        { progress with stdin := progress.stdin.text.2, fatal := some fatal }) ∨
    ∃ stdin : StandardInput, stdin.Holds content ∧
      (progress.stdin.text.1 = .ok content → stdin.text.1 = .ok content) ∧
      step settings validator progress input =
        { stdin
          reporter := (progress.reporter.report (outcomeWith settings validator content input)).1
          validated := progress.validated ++ [input.sourceWith content]
          fatal :=
            (progress.reporter.report (outcomeWith settings validator content input)).2 } := by
  cases horigin : input.origin with
  | file =>
      have hsource : sourceOf progress.stdin input = (.ok (.file input.path), progress.stdin) := by
        simp only [sourceOf, horigin]
      have hwith : input.sourceWith content = .file input.path := by
        simp only [Input.sourceWith, horigin]
      refine .inr ⟨progress.stdin, hholds, id, ?_⟩
      simp only [step, hsource, outcomeWith, hwith]
  | standardInput =>
      have hsource : sourceOf progress.stdin input =
          (progress.stdin.text.1.map (.content input.name), progress.stdin.text.2) := by
        simp only [sourceOf, horigin]
      cases htext : progress.stdin.text.1 with
      | error fatal =>
          rw [htext] at hsource
          refine .inl ⟨fatal, rfl, ?_⟩
          simp only [step, hsource, Except.map]
      | ok text =>
          -- what is read now is what is read whenever it is read
          obtain rfl := hholds text htext
          have hagain := StandardInput.text_text htext
          have hwith : input.sourceWith text = .content input.name text := by
            simp only [Input.sourceWith, horigin]
          rw [htext] at hsource
          refine .inr ⟨progress.stdin.text.2, StandardInput.holds_of_text hagain,
            fun _ => hagain, ?_⟩
          simp only [step, hsource, Except.map, outcomeWith, hwith]

theorem steps_of_fatal {progress : Progress} {fatal : Fatal} (hfatal : progress.fatal = some fatal)
    (inputs : List Input) : steps settings validator progress inputs = progress := by
  cases inputs with
  | nil => rfl
  | cons input rest => simp only [steps, hfatal]

/-- A run that nothing has ended in the end was not ended before. -/
theorem fatal_of_steps {progress : Progress} {inputs : List Input}
    (hfatal : (steps settings validator progress inputs).fatal = none) : progress.fatal = none := by
  cases hstart : progress.fatal with
  | none => rfl
  | some fatal =>
      rw [steps_of_fatal _ _ hstart, hstart] at hfatal
      contradiction

theorem mode_step (progress : Progress) (input : Input) :
    (step settings validator progress input).reporter.mode = progress.reporter.mode := by
  unfold step
  split
  · rfl
  · exact Reporter.mode_report _ _

theorem mode_steps (progress : Progress) (inputs : List Input) :
    (steps settings validator progress inputs).reporter.mode = progress.reporter.mode := by
  induction inputs generalizing progress with
  | nil => rfl
  | cons input rest ih =>
      rw [steps]
      cases progress.fatal with
      | some fatal => rfl
      | none => exact (ih _).trans (mode_step settings validator progress input)

/-! ## The ends of a run -/

/-- A run before its first input. -/
def atStart (settings : Settings) (stdin : StandardInput) (sink : Sink) : Progress :=
  { stdin
    reporter := Reporter.start settings.mode settings.theme sink
    validated := []
    fatal := none }

/-- Nothing has ended a run before its time that ends as a run should. -/
theorem fatal_of_finish {progress : Progress} {exit : Exit}
    (hresult : (finish progress).result = .ok exit) : progress.fatal = none := by
  cases hfatal : progress.fatal with
  | none => rfl
  | some fatal =>
      simp only [finish, hfatal] at hresult
      contradiction

theorem run_eq_finish (settings : Settings) (validator : Validator) (arguments : List String)
    (stdin : StandardInput) (sink : Sink) (hinputs : Input.ofRun arguments stdin ≠ []) :
    run settings validator arguments stdin sink =
      finish (steps settings validator (atStart settings stdin sink)
        (Input.ofRun arguments stdin)) := by
  unfold run
  rw [Input.resolve_eq_ofRun]
  cases hlist : Input.ofRun arguments stdin with
  | nil => exact absurd hlist hinputs
  | cons input rest => rfl

theorem run_eq_showUsage (settings : Settings) (validator : Validator) (arguments : List String)
    (stdin : StandardInput) (sink : Sink) (hinputs : Input.ofRun arguments stdin = []) :
    run settings validator arguments stdin sink = showUsage settings sink := by
  unfold run
  rw [Input.resolve_eq_ofRun, hinputs]

end Run

end RamlCheck
