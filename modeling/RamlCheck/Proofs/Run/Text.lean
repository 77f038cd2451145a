import RamlCheck.Proofs.Run.Steps

/-!
# A run that reports as text

Each input of such a run has a text of its own, `plainText`, which depends on what the
validator says about this input and on the policy and on nothing else.  `text_run` says
that a run writes these texts one after another, and that it fails exactly if an issue
of some input is reported.

## Strategy

Between two inputs a run is `Ready`: nothing has ended it, and standard input still
holds its text.  `step_text_cases` says what a step does whether or not standard input can
be read, `step_text` what it adds to the transcript if it can, and `steps_text` is the
induction over the inputs.
-/

namespace RamlCheck.Run

/-- The text of an input in a report without colours. -/
def plainText (policy : Policy) (input : Input) (verdict : Verdict) : String :=
  match policy.survivors input verdict with
  | [] => "[" ++ input.name ++ "] VALID\n"
  | issue :: rest =>
      String.join ((issue :: rest).map fun issue =>
        "[" ++ Report.sourceOf input issue ++ "] " ++ issue.message ++ "\n")

/-- What a run without colours is told whose report is a text. -/
def textSettings (policy : Policy) (usage : String) : Settings :=
  { policy, mode := .text, theme := .plain, usage }

/-- A report as a text without colours, on a sink that takes all of it. -/
structure Plain (reporter : Reporter) : Prop where
  mode : reporter.mode = .text
  theme : reporter.theme = .plain
  room : reporter.sink.room = none

/-- A run between two inputs that nothing has ended and nothing will end. -/
structure Ready (content : String) (progress : Progress) : Prop where
  text : progress.stdin.text.1 = .ok content
  fatal : progress.fatal = none
  mode : progress.reporter.mode = .text
  theme : progress.reporter.theme = .plain
  room : progress.reporter.sink.room = none

theorem Ready.holds {content : String} {progress : Progress} (hready : Ready content progress) :
    progress.stdin.Holds content :=
  StandardInput.holds_of_text hready.text

/-! ## One input -/

theorem text_evaluate (policy : Policy) (input : Input) (verdict : Verdict) :
    Report.text .plain (.evaluate policy input verdict) = plainText policy input verdict := by
  have hvalid := Outcome.isValid_evaluate policy input verdict
  have hissues := Outcome.issues_evaluate policy input verdict
  have hinput := Outcome.input_evaluate policy input verdict
  have hplain : ∀ severity text, (Theme.plain.ofSeverity severity).show text = text := by
    intro severity text
    cases severity <;> rfl
  unfold Report.text Report.lines plainText
  rw [hvalid, hissues, hinput]
  cases policy.survivors input verdict with
  | nil =>
      rw [if_pos List.isEmpty_nil]
      have hend : "] " ++ ("VALID" ++ "\n") = "] VALID\n" := by decide
      simp only [String.join_cons, String.join_nil, String.append_empty, Report.line, Theme.plain,
        Style.show, Report.validText]
      rw [String.append_assoc, String.append_assoc, hend]
  | cons issue rest =>
      rw [if_neg (by simp)]
      congr 2
      funext issue
      simp only [Report.issueLine, Report.line, hplain]

section

variable (policy : Policy) (usage : String) (validator : Validator) {content : String}

/-- The text of an input when standard input holds some text. -/
def textWith (policy : Policy) (validator : Validator) (content : String) (input : Input) :
    String :=
  plainText policy input (validator (input.sourceWith content))

/-- The issues of an input that are reported when standard input holds some text. -/
def issuesWith (policy : Policy) (validator : Validator) (content : String) (input : Input) :
    List Issue :=
  policy.survivors input (validator (input.sourceWith content))

/-- A step ends the run at standard input that cannot be read, or it validates its input and
adds the text of this input. -/
theorem step_text_cases {progress : Progress} (hholds : progress.stdin.Holds content)
    (hplain : Plain progress.reporter) (input : Input) :
    let after := step (textSettings policy usage) validator progress input
    (∃ fatal, progress.stdin.text.1 = .error fatal ∧ after.fatal = some fatal ∧
      after.validated = progress.validated ∧ after.reporter = progress.reporter) ∨
    (after.fatal = none ∧ after.stdin.Holds content ∧
      (progress.stdin.text.1 = .ok content → after.stdin.text.1 = .ok content) ∧
      Plain after.reporter ∧
      after.validated = progress.validated ++ [input.sourceWith content] ∧
      after.reporter.sink.written = progress.reporter.sink.written ++
        Sink.bytesOf (textWith policy validator content input) ∧
      after.reporter.issueCount =
        progress.reporter.issueCount + (issuesWith policy validator content input).length) := by
  intro after
  rcases step_cases (textSettings policy usage) validator input hholds with
    ⟨fatal, htext, hstep⟩ | ⟨stdin, hnext, hkeeps, hstep⟩
  · have hafter : after = _ := hstep
    rw [hafter]
    exact .inl ⟨fatal, htext, rfl, rfl, rfl⟩
  · have hissues : (outcomeWith (textSettings policy usage) validator content input).issues =
        issuesWith policy validator content input := Outcome.issues_evaluate ..
    have hreport : Report.text .plain
        (outcomeWith (textSettings policy usage) validator content input) =
          textWith policy validator content input := text_evaluate ..
    -- on a sink without bounds no report fails
    rw [Reporter.report_text hplain.mode hplain.room, hissues, hplain.theme, hreport] at hstep
    have hafter : after = _ := hstep
    rw [hafter]
    exact .inr ⟨rfl, hnext, hkeeps, ⟨hplain.mode, rfl, hplain.room⟩, rfl, rfl, rfl⟩

/-- A step validates its input and adds the text of this input. -/
theorem step_text {progress : Progress} (hready : Ready content progress) (input : Input) :
    let after := step (textSettings policy usage) validator progress input
    Ready content after ∧
      after.validated = progress.validated ++ [input.sourceWith content] ∧
      after.reporter.sink.written = progress.reporter.sink.written ++
        Sink.bytesOf (textWith policy validator content input) ∧
      after.reporter.issueCount =
        progress.reporter.issueCount + (issuesWith policy validator content input).length := by
  have hplain : Plain progress.reporter := ⟨hready.mode, hready.theme, hready.room⟩
  rcases step_text_cases policy usage validator hready.holds hplain input with
    ⟨fatal, htext, -⟩ | ⟨hfatal, -, hkeeps, hplain, hvalidated, hwritten, hcount⟩
  · rw [hready.text] at htext
    contradiction
  · exact ⟨⟨hkeeps hready.text, hfatal, hplain.mode, hplain.theme, hplain.room⟩, hvalidated,
      hwritten, hcount⟩

/-- A run over some inputs validates each of them once, in order, and writes their texts
one after another. -/
theorem steps_text {progress : Progress} (hready : Ready content progress) (inputs : List Input) :
    let after := steps (textSettings policy usage) validator progress inputs
    Ready content after ∧
      after.validated = progress.validated ++ inputs.map (·.sourceWith content) ∧
      after.reporter.sink.written = progress.reporter.sink.written ++
        Sink.bytesOf (String.join (inputs.map (textWith policy validator content))) ∧
      after.reporter.issueCount = progress.reporter.issueCount +
        (inputs.flatMap (issuesWith policy validator content)).length := by
  induction inputs generalizing progress with
  | nil => exact ⟨hready, by simp [steps], by simp [steps, String.join], by simp [steps]⟩
  | cons input rest ih =>
      have hsteps : steps (textSettings policy usage) validator progress (input :: rest) =
          steps (textSettings policy usage) validator
            (step (textSettings policy usage) validator progress input) rest := by
        rw [steps, hready.fatal]
      obtain ⟨hnext, hvalidated, hwritten, hcount⟩ :=
        step_text policy usage validator hready input
      obtain ⟨hend, hrestValidated, hrestWritten, hrestCount⟩ := ih hnext
      rw [hsteps]
      refine ⟨hend, ?_, ?_, ?_⟩
      · rw [hrestValidated, hvalidated, List.append_assoc, List.map_cons, List.singleton_append]
      · rw [hrestWritten, hwritten, List.append_assoc, ← Sink.bytesOf_append, List.map_cons,
          String.join_cons]
      · rw [hrestCount, hcount, List.flatMap_cons, List.length_append, Nat.add_assoc]

end

/-! ## The whole run -/

theorem finish_text {progress : Progress} {content : String} (hready : Ready content progress) :
    finish progress =
      { validated := progress.validated
        sink := progress.reporter.sink
        result := .ok (if progress.reporter.hasIssues then .issues else .success) } := by
  simp only [finish, hready.fatal, Reporter.flush, hready.mode]

/-- The exit of a run that counts the parts of some items. -/
theorem code_of_count {Item Other : Type} (items : List Item) (parts : Item → List Other)
    {fails : Bool} (hfails : fails = true ↔ (items.flatMap parts).length ≠ 0) :
    ((if fails then Exit.issues else .success).code = 1 ↔ ∃ item ∈ items, parts item ≠ []) ∧
      ((if fails then Exit.issues else .success).code = 0 ↔ ∀ item ∈ items, parts item = []) := by
  have hnone : (items.flatMap parts).length = 0 ↔ ∀ item ∈ items, parts item = [] := by
    rw [List.length_eq_zero_iff, List.flatMap_eq_nil_iff]
  have hsome : (items.flatMap parts).length ≠ 0 ↔ ∃ item ∈ items, parts item ≠ [] := by
    rw [Ne, hnone]
    simp only [Classical.not_forall, Ne, exists_prop]
  rw [← hsome, ← hnone, ← hfails]
  cases fails with
  | true => simpa [Exit.code] using hfails
  | false => simpa [Exit.code] using hfails

/-- A run that reports as text, from one end to the other: its inputs are validated once
each and in order, those that read standard input with the same text; their texts are
written one after another; the run fails exactly if an issue of some input is reported;
and only a run without inputs shows how it is used. -/
theorem text_run (policy : Policy) (validator : Validator) (arguments : List String)
    (stdin : StandardInput) (content : String) (hreadable : stdin.text.1 = .ok content) :
    let inputs := Input.ofRun arguments stdin
    let transcript := fun usage =>
      run (textSettings policy usage) validator arguments stdin .boundless
    (∀ usage,
      (transcript usage).validated = inputs.map (·.sourceWith content) ∧
      (transcript usage).sink.written = Sink.bytesOf (if inputs = [] then usage
        else String.join (inputs.map (textWith policy validator content))) ∧
      ∃ exit, (transcript usage).result = .ok exit ∧
        (exit.code = 1 ↔ ∃ input ∈ inputs, issuesWith policy validator content input ≠ []) ∧
        (exit.code = 0 ↔ ∀ input ∈ inputs, issuesWith policy validator content input = [])) ∧
    ((∀ usage, (transcript usage).sink.written = Sink.bytesOf usage ∧
      (transcript usage).result = .ok .success) ↔ inputs = []) := by
  intro inputs transcript
  have hready : ∀ usage, Ready content (atStart (textSettings policy usage) stdin .boundless) :=
    fun usage => ⟨hreadable, rfl, rfl, rfl, rfl⟩
  by_cases hinputs : inputs = []
  · -- without inputs nothing but the usage is written
    have hrun : ∀ usage, transcript usage = showUsage (textSettings policy usage) .boundless :=
      fun usage => run_eq_showUsage _ _ _ _ _ hinputs
    refine ⟨fun usage => ?_, ⟨fun _ => hinputs, fun _ usage => ?_⟩⟩
    · rw [hrun, hinputs, if_pos rfl]
      exact ⟨rfl, rfl, .success, rfl, by simp [Exit.code]⟩
    · rw [hrun]
      exact ⟨rfl, rfl⟩
  · have hrun : ∀ usage, transcript usage = finish (steps (textSettings policy usage) validator
        (atStart (textSettings policy usage) stdin .boundless) inputs) :=
      fun usage => run_eq_finish _ _ _ _ _ hinputs
    have hsteps := fun usage => steps_text policy usage validator (hready usage) inputs
    refine ⟨fun usage => ?_, ⟨fun husage => ?_, fun hnone => absurd hnone hinputs⟩⟩
    · obtain ⟨hend, hvalidated, hwritten, hcount⟩ := hsteps usage
      rw [hrun, finish_text hend, if_neg hinputs]
      refine ⟨hvalidated, hwritten, _, rfl, code_of_count inputs _ ?_⟩
      have hzero : (atStart (textSettings policy usage) stdin .boundless).reporter.issueCount = 0 :=
        rfl
      rw [Reporter.hasIssues, decide_eq_true_eq, hcount, hzero, Nat.zero_add]
    · -- what is written does not depend on the usage, so it cannot be the usage
      have hwritten : ∀ usage, (transcript usage).sink.written =
          Sink.bytesOf (String.join (inputs.map (textWith policy validator content))) := by
        intro usage
        rw [hrun, finish_text (hsteps usage).1]
        exact (hsteps usage).2.2.1
      have hsame := (husage "").1.symm.trans ((hwritten "").trans (hwritten "?").symm)
      rw [(husage "?").1] at hsame
      have hlength := congrArg List.length hsame
      rw [Sink.length_bytesOf, Sink.length_bytesOf] at hlength
      exact absurd hlength (by decide)

/-- A pipe beside a file: standard input comes first. -/
theorem validated_of_pipe :
    (StandardInput.ofContent "x").text.1 = .ok "x" ∧
      (run (textSettings .everything "") (fun _ => .ok .null) ["a.raml"]
        (.ofContent "x") .boundless).validated = [.content "STDIN" "x", .file "a.raml"] := by
  have hrun := text_run .everything (fun _ => .ok .null) ["a.raml"] (.ofContent "x") "x" rfl
  exact ⟨rfl, (hrun.1 "").1.trans (by decide)⟩

end RamlCheck.Run
