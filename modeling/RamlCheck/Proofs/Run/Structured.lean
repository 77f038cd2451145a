import Mathlib.Data.List.Forall2
import RamlCheck.Proofs.Report.Calls
import RamlCheck.Proofs.Validation

/-!
# A run that reports payloads

Such a run writes nothing until its end, and then one value with the payload of each
input, provided that no issue was reported (`structured_run`).

## Strategy

Between two inputs a run has `Gathered` the payloads of the inputs so far, unless an
issue was reported: an input without issues is valid, and a valid input has a payload
(`exists_payload_of_isValid`).  `step_gathered` says that a step keeps this, and
`steps_gathered` is the induction over the inputs.
-/

namespace RamlCheck.Run

/-- The value that payloads are reported as: a single one as it is, several as a list. -/
def reportValue : List Json → Json
  | [payload] => payload
  | payloads => .array payloads

/-- What a run is told whose report is made of payloads. -/
def structuredSettings (policy : Policy) (theme : Theme) (usage : String) : Settings :=
  { policy, mode := .structured, theme, usage }

/-- A run that has gone through some inputs: nothing is written, and if no issue was
reported the payloads of all of them are collected, in their order. -/
structure Gathered (files : FileSystem) (content : String) (done : List Input)
    (progress : Progress) : Prop where
  holds : progress.stdin.Holds content
  mode : progress.reporter.mode = .structured
  sink : progress.reporter.sink = .boundless
  collected : progress.reporter.issueCount = 0 →
    List.Forall₂ (IsPayload files content) done progress.reporter.collected

variable {files : FileSystem} {content : String} {done : List Input} {progress : Progress}

section

variable (registry : Registry) (policy : Policy) (theme : Theme) (usage : String)

/-- A step that does not end the run collects the payload of its input, unless an issue
of it is reported. -/
theorem step_gathered (hnameless : files.Nameless)
    (hgathered : Gathered files content done progress) (input : Input)
    (hfatal : (step (structuredSettings policy theme usage) (validator registry files) progress
      input).fatal = none) :
    Gathered files content (done ++ [input])
      (step (structuredSettings policy theme usage) (validator registry files) progress input) := by
  have hcases := step_cases (structuredSettings policy theme usage) (validator registry files)
    input hgathered.holds
  rcases hcases with ⟨fatal, -, hended⟩ | ⟨stdin, hholds, -, hstep⟩
  · rw [hended] at hfatal
    contradiction
  · rw [Reporter.report_structured hgathered.mode] at hstep
    rw [hstep]
    refine ⟨hholds, hgathered.mode, hgathered.sink, fun hcount => ?_⟩
    obtain ⟨hbefore, hissues⟩ := Nat.add_eq_zero_iff.mp hcount
    have hvalid : (outcomeWith (structuredSettings policy theme usage) (validator registry files)
        content input).isValid = true := by
      rw [outcomeWith, Outcome.isValid_evaluate, List.isEmpty_iff, ← Outcome.issues_evaluate]
      exact List.length_eq_zero_iff.mp hissues
    obtain ⟨payload, hpayload, hisPayload⟩ :=
      exists_payload_of_isValid hnameless registry (structuredSettings policy theme usage) hvalid
    simp only [hvalid, if_true, hpayload, Option.toList_some]
    exact List.rel_append (hgathered.collected hbefore) (.cons hisPayload .nil)

/-- A run over some inputs that nothing ends collects the payloads of all of them. -/
theorem steps_gathered (hnameless : files.Nameless)
    (hgathered : Gathered files content done progress) (hstart : progress.fatal = none)
    (inputs : List Input)
    (hfatal : (steps (structuredSettings policy theme usage) (validator registry files) progress
      inputs).fatal = none) :
    Gathered files content (done ++ inputs)
      (steps (structuredSettings policy theme usage) (validator registry files) progress
        inputs) := by
  induction inputs generalizing done progress with
  | nil => simpa [steps] using hgathered
  | cons input rest ih =>
      rw [steps, hstart] at hfatal ⊢
      cases hnext : (step (structuredSettings policy theme usage) (validator registry files)
        progress input).fatal with
      | some fatal =>
          rw [steps_of_fatal _ _ hnext, hnext] at hfatal
          contradiction
      | none =>
          have hstep := step_gathered registry policy theme usage hnameless hgathered input hnext
          have hsteps := ih hstep hnext hfatal
          rwa [List.append_assoc, List.singleton_append] at hsteps

/-- Only standard input that cannot be read ends a run before its time. -/
theorem fatal_steps (htext : progress.stdin.text.1 = .ok content)
    (hmode : progress.reporter.mode = .structured) (hstart : progress.fatal = none)
    (inputs : List Input) :
    (steps (structuredSettings policy theme usage) (validator registry files) progress
      inputs).fatal = none := by
  induction inputs generalizing progress with
  | nil => exact hstart
  | cons input rest ih =>
      have hholds := StandardInput.holds_of_text htext
      have hcases := step_cases (structuredSettings policy theme usage) (validator registry files)
        input hholds
      rw [steps, hstart]
      rcases hcases with ⟨fatal, herror, -⟩ | ⟨stdin, -, hkeeps, hstep⟩
      · rw [htext] at herror
        contradiction
      · rw [Reporter.report_structured hmode] at hstep
        rw [hstep]
        exact ih (hkeeps htext) hmode rfl

end

/-! ## The whole run -/

theorem gathered_atStart {stdin : StandardInput} (hholds : stdin.Holds content) (policy : Policy)
    (theme : Theme) (usage : String) :
    Gathered files content [] (atStart (structuredSettings policy theme usage) stdin .boundless) :=
  ⟨hholds, rfl, rfl, fun _ => .nil⟩

theorem payloadText_eq {payloads : List Json} (hne : payloads ≠ []) :
    Reporter.payloadText payloads = (reportValue payloads).pretty ++ "\n" := by
  match payloads with
  | [] => exact absurd rfl hne
  | [payload] => rfl
  | first :: second :: rest => rfl

/-- At the end a run that has gathered payloads writes nothing, or all of them. -/
theorem finish_gathered (hgathered : Gathered files content done progress)
    (hfatal : progress.fatal = none) (hne : done ≠ []) :
    ((finish progress).result = .ok .issues ∧ (finish progress).sink.written = []) ∨
      ((finish progress).result = .ok .success ∧ ∃ payloads,
        List.Forall₂ (IsPayload files content) done payloads ∧
        (finish progress).sink.written = Sink.bytesOf ((reportValue payloads).pretty ++ "\n")) := by
  cases hissues : progress.reporter.hasIssues with
  | true =>
      left
      simp only [finish, hfatal, Reporter.flush, hgathered.mode, hissues, if_true, hgathered.sink]
      exact ⟨trivial, rfl⟩
  | false =>
      have hcount : progress.reporter.issueCount = 0 := by
        simpa [Reporter.hasIssues] using hissues
      have hpayloads := hgathered.collected hcount
      right
      simp only [finish, hfatal, Reporter.flush, hgathered.mode, hissues, Bool.false_eq_true,
        if_false, Reporter.write, Sink.write, Sink.push, Sink.fits, Sink.boundless,
        hgathered.sink, List.nil_append, if_true]
      refine ⟨by simp [Reporter.hasIssues, hcount], progress.reporter.collected, hpayloads, ?_⟩
      rw [payloadText_eq]
      intro hnil
      rw [hnil] at hpayloads
      exact hne (List.forall₂_nil_right_iff.mp hpayloads)

/-- A run that reports payloads, from one end to the other.  If it succeeds, it has
written one value and a line feed: the payload of its input, or the list of the payloads
of all its inputs in their order, each of them an object.  If it fails, it has written
nothing.  It does end in one of these ways when standard input can be read, and no input
is ever valid without a payload. -/
theorem structured_run (hnameless : files.Nameless) (registry : Registry) (policy : Policy)
    (theme : Theme) (usage : String) (arguments : List String) (stdin : StandardInput)
    (hholds : stdin.Holds content) (hinputs : Input.ofRun arguments stdin ≠ []) :
    let settings := structuredSettings policy theme usage
    let transcript := run settings (validator registry files) arguments stdin .boundless
    (transcript.result = .ok .success → ∃ payloads,
      List.Forall₂ (IsPayload files content) (Input.ofRun arguments stdin) payloads ∧
      transcript.sink.written = Sink.bytesOf ((reportValue payloads).pretty ++ "\n")) ∧
    (transcript.result = .ok .issues → transcript.sink.written = []) ∧
    (stdin.text.1 = .ok content → ∃ exit, transcript.result = .ok exit) ∧
    ∀ input, (outcomeWith settings (validator registry files) content input).isValid = true →
      ∃ payload, (outcomeWith settings (validator registry files) content input).payload =
        some payload ∧ IsPayload files content input payload := by
  intro settings transcript
  have hrun : transcript = finish (steps settings (validator registry files)
      (atStart settings stdin .boundless) (Input.ofRun arguments stdin)) :=
    run_eq_finish _ _ _ _ _ hinputs
  generalize hend : steps settings (validator registry files) (atStart settings stdin .boundless)
    (Input.ofRun arguments stdin) = progress at hrun
  have hends (hfatal : progress.fatal = none) := finish_gathered (hend ▸
    steps_gathered registry policy theme usage hnameless (gathered_atStart hholds policy theme usage)
      rfl (Input.ofRun arguments stdin) (hend ▸ hfatal)) hfatal hinputs
  rw [hrun]
  refine ⟨fun hsuccess => ?_, fun hissues => ?_, fun htext => ?_, fun input hvalid =>
    exists_payload_of_isValid hnameless registry settings hvalid⟩
  · rcases hends (fatal_of_finish hsuccess) with ⟨hissues, -⟩ | ⟨-, hpayloads⟩
    · exact absurd (hissues.symm.trans hsuccess) (by simp)
    · exact hpayloads
  · rcases hends (fatal_of_finish hissues) with ⟨-, hnone⟩ | ⟨hsuccess, -⟩
    · exact hnone
    · exact absurd (hissues.symm.trans hsuccess) (by simp)
  · -- only standard input that cannot be read ends such a run before its time
    have hfatal : progress.fatal = none := by
      rw [← hend]
      exact fatal_steps registry policy theme usage htext rfl rfl _
    rcases hends hfatal with ⟨hissues, -⟩ | ⟨hsuccess, -⟩
    · exact ⟨_, hissues⟩
    · exact ⟨_, hsuccess⟩

/-- A directory with two documents. -/
def twoDocuments : FileSystem :=
  .ofList [("a.raml", .ok "#%RAML 1.0\ntitle: x\n"), ("b.raml", .ok "#%RAML 1.0\ntitle: y\n")]

theorem nameless_twoDocuments : twoDocuments.Nameless := by
  intro path hname
  by_cases hfirst : path = "a.raml"
  · subst hfirst
    exact absurd hname (by decide)
  by_cases hsecond : path = "b.raml"
  · subst hsecond
    exact absurd hname (by decide)
  refine ⟨.notFound, ?_⟩
  simp [twoDocuments, FileSystem.ofList, List.lookup_cons, beq_eq_false_iff_ne.mpr hfirst,
    beq_eq_false_iff_ne.mpr hsecond]

/-- The payload of a single document is written as it is, those of two as an array. -/
theorem structured_run_of_documents :
    twoDocuments.Nameless ∧ (StandardInput.terminal .empty).Holds "" ∧
      (Input.ofRun ["a.raml"] (.terminal .empty) ≠ [] ∧
        ∃ payload, IsPayload twoDocuments "" (.file "a.raml") payload ∧
          (run (structuredSettings .everything .plain "") (validator .builtin twoDocuments)
            ["a.raml"] (.terminal .empty) .boundless).sink.written =
              Sink.bytesOf (payload.pretty ++ "\n")) ∧
      Input.ofRun ["a.raml", "b.raml"] (.terminal .empty) ≠ [] ∧
        ∃ first second, IsPayload twoDocuments "" (.file "a.raml") first ∧
          IsPayload twoDocuments "" (.file "b.raml") second ∧
          (run (structuredSettings .everything .plain "") (validator .builtin twoDocuments)
            ["a.raml", "b.raml"] (.terminal .empty) .boundless).sink.written =
              Sink.bytesOf ((Json.array [first, second]).pretty ++ "\n") := by
  have hholds : (StandardInput.terminal .empty).Holds "" := by
    intro text htext
    exact (Except.ok.inj htext).symm
  have hone : Input.ofRun ["a.raml"] (.terminal .empty) ≠ [] := by decide
  have htwo : Input.ofRun ["a.raml", "b.raml"] (.terminal .empty) ≠ [] := by decide
  refine ⟨nameless_twoDocuments, hholds, ⟨hone, ?_⟩, htwo, ?_⟩
  · obtain ⟨payloads, hpayloads, hwritten⟩ :=
      (structured_run nameless_twoDocuments .builtin .everything .plain "" ["a.raml"]
        (.terminal .empty) hholds hone).1 (by decide +kernel)
    -- one input has one payload, and this is no list
    obtain _ | ⟨hpayload, _ | _⟩ := hpayloads
    exact ⟨_, hpayload, hwritten⟩
  · obtain ⟨payloads, hpayloads, hwritten⟩ :=
      (structured_run nameless_twoDocuments .builtin .everything .plain "" ["a.raml", "b.raml"]
        (.terminal .empty) hholds htwo).1 (by decide +kernel)
    obtain _ | ⟨hfirst, _ | ⟨hsecond, _ | _⟩⟩ := hpayloads
    exact ⟨_, _, hfirst, hsecond, hwritten⟩

end RamlCheck.Run
