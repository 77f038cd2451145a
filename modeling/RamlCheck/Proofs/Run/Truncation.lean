import RamlCheck.Proofs.Run.Steps

/-!
# A run on a sink with limited room

A sink may refuse to take more than some number of bytes.  A run that succeeds in writing
its report without bounds then writes the same bytes up to that number, and is told so if
they are not all: `run_truncated`.

## Strategy

The two runs are followed side by side.  As long as all that was written fits, they are the
same but for the sink, whose bytes are cut off at the limit (`Reporter.cutTo`).  The first
text that does not fit ends the run on the limited sink; the other one goes on, but since
it only appends, what fits stays the same (`Follows`).
-/

namespace RamlCheck

/-- Why a report could not be written: a text is output, payloads are JSON. -/
def Mode.refusal : Mode → Fatal
  | .text => .output Sink.refusal
  | .structured => .json Sink.refusal

/-! ## One call -/

namespace Reporter

variable {reporter : Reporter} {limit : Nat}

/-- A reporter that has written the same to a sink with room for some bytes. -/
def cutTo (limit : Nat) (reporter : Reporter) : Reporter :=
  { reporter with sink := (Sink.bounded limit).push reporter.sink.written }

/-- What a limited sink says to a text when everything before it did fit. -/
theorem write_cutTo (hroom : reporter.sink.room = none)
    (hfits : reporter.sink.written.length ≤ limit) (fatal : String → Fatal) (text : String) :
    (reporter.cutTo limit).write fatal text =
      ((reporter.write fatal text).1.cutTo limit,
        if (reporter.write fatal text).1.sink.written.length ≤ limit then none
        else some (fatal Sink.refusal)) := by
  have hbefore : (Sink.bounded limit).fits reporter.sink.written = true := decide_eq_true hfits
  have hboth := Sink.fits_append (Sink.bounded limit) reporter.sink.written (Sink.bytesOf text)
  rw [hbefore, Bool.true_and] at hboth
  rw [write_boundless hroom]
  simp only [write, Sink.write, cutTo, Sink.push_append, ← hboth]
  simp only [Sink.fits, Sink.bounded, decide_eq_true_eq]

theorem report_cutTo (hroom : reporter.sink.room = none)
    (hfits : reporter.sink.written.length ≤ limit) (outcome : Outcome) :
    (reporter.cutTo limit).report outcome =
      ((reporter.report outcome).1.cutTo limit,
        if (reporter.report outcome).1.sink.written.length ≤ limit then none
        else some (.output Sink.refusal)) := by
  cases hmode : reporter.mode with
  | text =>
      rw [report_eq_write hmode, report_eq_write (show (reporter.cutTo limit).mode = _ from hmode)]
      exact @write_cutTo { reporter with
        issueCount := reporter.issueCount + outcome.issues.length } limit hroom hfits _ _
  | structured =>
      have hcut : (reporter.cutTo limit).mode = .structured := hmode
      rw [report_structured hmode, report_structured hcut, if_pos hfits]
      rfl

theorem flush_cutTo (hroom : reporter.sink.room = none)
    (hfits : reporter.sink.written.length ≤ limit) :
    (reporter.cutTo limit).flush =
      (reporter.flush.1.cutTo limit,
        if reporter.flush.1.sink.written.length ≤ limit then none
        else some reporter.mode.refusal) := by
  cases hmode : reporter.mode with
  | text =>
      have hcut : (reporter.cutTo limit).mode = .text := hmode
      rw [flush_text hmode, flush_text hcut, if_pos hfits]
  | structured =>
      have hcut : (reporter.cutTo limit).mode = .structured := hmode
      by_cases hcount : reporter.issueCount = 0
      · rw [flush_eq_write hmode hcount, flush_eq_write hcut hcount]
        exact @write_cutTo { reporter with collected := [] } limit hroom hfits _ _
      · rw [flush_of_issues hmode hcount, flush_of_issues hcut hcount, if_pos hfits]

/-- A report only adds to what was written. -/
theorem written_report (hroom : reporter.sink.room = none) (outcome : Outcome) :
    reporter.sink.written <+: (reporter.report outcome).1.sink.written := by
  cases hmode : reporter.mode with
  | text =>
      rw [report_text hmode hroom]
      exact List.prefix_append _ _
  | structured =>
      exact ⟨[], by rw [List.append_nil, report_structured hmode]⟩

end Reporter

namespace Run

variable {settings : Settings} {validator : Validator} {full cut : Progress} {limit : Nat}

/-! ## A step -/

/-- What a step leaves of a run on a sink without bounds. -/
theorem step_extends (settings : Settings) (validator : Validator)
    (hroom : full.reporter.sink.room = none) (input : Input) :
    (step settings validator full input).reporter.sink.room = none ∧
      full.reporter.sink.written <+:
        (step settings validator full input).reporter.sink.written ∧
      full.validated <+: (step settings validator full input).validated := by
  unfold step
  split
  · exact ⟨hroom, List.prefix_rfl, List.prefix_rfl⟩
  · exact ⟨(Reporter.report_boundless hroom _).2, Reporter.written_report hroom _,
      List.prefix_append _ _⟩

/-- A run that was ended by the first text that did not fit, beside the same run without
bounds. -/
structure Refused (limit : Nat) (full cut : Progress) : Prop where
  mode : full.reporter.mode = .text
  exceeds : limit < full.reporter.sink.written.length
  fatal : cut.fatal = some (.output Sink.refusal)
  sink : cut.reporter.sink = (Sink.bounded limit).push full.reporter.sink.written
  validated : cut.validated <+: full.validated

/-- A run on a sink with room for some bytes, beside the same run without bounds.  As long as
all that was written fits it is the same run. -/
inductive Follows (limit : Nat) (full : Progress) : Progress → Prop
  | within (hfits : full.reporter.sink.written.length ≤ limit) :
      Follows limit full { full with reporter := full.reporter.cutTo limit }
  | refused {cut : Progress} (hrefused : Refused limit full cut) : Follows limit full cut

/-- A step from where everything fits: what it writes fits too, or is refused. -/
theorem follows_step (hroom : full.reporter.sink.room = none)
    (hfits : full.reporter.sink.written.length ≤ limit) {input : Input}
    (hgoing : (step settings validator full input).fatal = none) :
    Follows limit (step settings validator full input)
      (step settings validator { full with reporter := full.reporter.cutTo limit } input) := by
  unfold step at hgoing ⊢
  cases hsource : sourceOf full.stdin input with
  | mk result stdin =>
      cases result with
      | error fatal => simp [hsource] at hgoing
      | ok source =>
          simp only [hsource] at hgoing ⊢
          generalize Outcome.evaluate settings.policy input (validator source) = outcome at *
          rw [Reporter.report_cutTo hroom hfits]
          split
          · next hnext =>
            rw [hgoing]
            exact .within hnext
          · next hnext =>
            -- in a report of payloads nothing is written here, so nothing can exceed the limit
            have hexceeds := Nat.lt_of_not_le hnext
            refine .refused ⟨?_, hexceeds, rfl, rfl, List.prefix_rfl⟩
            cases hmode : full.reporter.mode with
            | text => exact (Reporter.mode_report _ _).trans hmode
            | structured =>
                rw [Reporter.report_structured hmode] at hexceeds
                exact absurd hfits (Nat.not_le.mpr hexceeds)

/-- Behind a refusal nothing changes: what the other run still writes does not fit either. -/
theorem Refused.step (hrefused : Refused limit full cut) (hroom : full.reporter.sink.room = none)
    (input : Input) : Refused limit (step settings validator full input) cut where
  mode := (mode_step _ _ _ _).trans hrefused.mode
  exceeds :=
    Nat.lt_of_lt_of_le hrefused.exceeds
      (step_extends settings validator hroom input).2.1.length_le
  fatal := hrefused.fatal
  sink := by
    obtain ⟨-, ⟨more, hmore⟩, -⟩ := step_extends settings validator hroom input
    have hfull : (Sink.bounded limit).fits full.reporter.sink.written = false :=
      decide_eq_false (Nat.not_le.mpr hrefused.exceeds)
    rw [hrefused.sink, ← hmore, Sink.push_append_of_not_fits hfull]
  validated :=
    hrefused.validated.trans (step_extends settings validator hroom input).2.2

theorem Follows.steps (hfollows : Follows limit full cut)
    (hroom : full.reporter.sink.room = none) {inputs : List Input}
    (hgoing : (steps settings validator full inputs).fatal = none) :
    Follows limit (steps settings validator full inputs) (steps settings validator cut inputs) := by
  induction inputs generalizing full cut with
  | nil => exact hfollows
  | cons input rest ih =>
      have hstart := fatal_of_steps settings validator hgoing
      have hsteps : Run.steps settings validator full (input :: rest) =
          Run.steps settings validator (step settings validator full input) rest := by
        rw [Run.steps, hstart]
      rw [hsteps] at hgoing ⊢
      have hnext := (step_extends settings validator hroom input).1
      cases hfollows with
      | within hfits =>
          -- both runs take the step
          rw [Run.steps]
          simp only [hstart]
          have hstep := follows_step hroom hfits (fatal_of_steps settings validator hgoing)
          rw [hstart] at hstep
          exact ih hstep hnext hgoing
      | refused hrefused =>
          -- the limited run has ended, and the other one goes on alone
          have hrest := ih (.refused (hrefused.step hroom input)) hnext hgoing
          rw [steps_of_fatal _ _ hrefused.fatal] at hrest ⊢
          exact hrest

theorem follows_atStart (settings : Settings) (stdin : StandardInput) (limit : Nat) :
    Follows limit (atStart settings stdin .boundless)
      (atStart settings stdin (.bounded limit)) := by
  have hempty : (Sink.bounded limit).push [] = .bounded limit := Sink.push_nil _
  have hcut : ((atStart settings stdin .boundless).reporter.cutTo limit).sink = .bounded limit :=
    hempty
  have hwithin := @Follows.within limit (atStart settings stdin .boundless) (Nat.zero_le _)
  rw [atStart, ← hcut]
  exact hwithin

theorem room_steps (hroom : full.reporter.sink.room = none) (inputs : List Input) :
    (steps settings validator full inputs).reporter.sink.room = none := by
  induction inputs generalizing full with
  | nil => exact hroom
  | cons input rest ih =>
      rw [Run.steps]
      cases full.fatal with
      | some fatal => exact hroom
      | none => exact ih (step_extends settings validator hroom input).1

end Run

/-! ## The end -/

/-- What a run leaves on a sink with room for some bytes, beside the same run without bounds:
the same bytes up to the limit, and the error of a refusal if they are not all. -/
structure Transcript.Truncates (limit : Nat) (refusal : Fatal) (full cut : Transcript) : Prop where
  sink : cut.sink = (Sink.bounded limit).push full.sink.written
  whole : full.sink.written.length ≤ limit → cut.result = full.result
  short : limit < full.sink.written.length → cut.result = .error refusal
  validated : cut.validated <+: full.validated

namespace Run

variable {full cut : Progress} {limit : Nat}

theorem Follows.finish (hfollows : Follows limit full cut)
    (hroom : full.reporter.sink.room = none) (hgoing : full.fatal = none) :
    (Run.finish full).Truncates limit full.reporter.mode.refusal (Run.finish cut) := by
  have hflush := Reporter.flush_boundless hroom
  cases hfollows with
  | within hfits =>
      simp only [Run.finish, hgoing, Reporter.flush_cutTo hroom hfits, hflush]
      refine ⟨rfl, fun hwhole => ?_, fun hshort => ?_, List.prefix_rfl⟩
      · rw [if_pos hwhole]
        rfl
      · rw [if_neg (Nat.not_le.mpr hshort)]
  | refused hrefused =>
      have hsame := Reporter.flush_text hrefused.mode
      simp only [Run.finish, hgoing, hrefused.fatal, hsame, hrefused.mode]
      exact ⟨hrefused.sink, fun hwhole => absurd hwhole (Nat.not_le.mpr hrefused.exceeds),
        fun _ => rfl, hrefused.validated⟩

variable (settings : Settings) (validator : Validator) (arguments : List String)
  (stdin : StandardInput)

theorem showUsage_truncates (limit : Nat) :
    (showUsage settings .boundless).Truncates limit (.output Sink.refusal)
      (showUsage settings (.bounded limit)) where
  sink := rfl
  whole hwhole := by
    have hfits : (Sink.bounded limit).fits (Sink.bytesOf settings.usage) = true :=
      decide_eq_true hwhole
    simp only [showUsage, Sink.write, hfits, if_true]
    rfl
  short hshort := by
    have hfull : (Sink.bounded limit).fits (Sink.bytesOf settings.usage) = false :=
      decide_eq_false (Nat.not_le.mpr hshort)
    simp only [showUsage, Sink.write, hfull, Bool.false_eq_true, if_false]
  validated := List.prefix_rfl

theorem run_truncates {exit : Exit}
    (hresult : (run settings validator arguments stdin .boundless).result = .ok exit)
    (limit : Nat) :
    (run settings validator arguments stdin .boundless).Truncates limit
      (if Input.ofRun arguments stdin = [] then .output Sink.refusal else settings.mode.refusal)
      (run settings validator arguments stdin (.bounded limit)) := by
  by_cases hinputs : Input.ofRun arguments stdin = []
  · rw [run_eq_showUsage _ _ _ _ _ hinputs, run_eq_showUsage _ _ _ _ _ hinputs, if_pos hinputs]
    exact showUsage_truncates settings limit
  · rw [run_eq_finish _ _ _ _ _ hinputs] at hresult ⊢
    rw [run_eq_finish _ _ _ _ _ hinputs, if_neg hinputs]
    have hstart := follows_atStart settings stdin limit
    generalize hfull : atStart settings stdin .boundless = full at *
    have hroom : full.reporter.sink.room = none := by
      rw [← hfull]
      rfl
    have hgoing := fatal_of_finish hresult
    -- what refuses the text depends on the mode, which steps do not change
    have hmode : (steps settings validator full (Input.ofRun arguments stdin)).reporter.mode =
        settings.mode := by
      rw [mode_steps, ← hfull]
      rfl
    rw [← hmode]
    exact (hstart.steps hroom hgoing).finish (room_steps hroom _) hgoing

/-- A run that succeeds in writing its report without bounds, and the same run on a sink with
room for some bytes.  The latter writes the same bytes up to the limit.  If these are all, it
ends in the same way; otherwise it fails, at the usage or the lines of a text as output and at
payloads as JSON.  It makes no difference in which pieces the report is handed to the sink:
writing any pieces of it up to the first refusal leaves the same. -/
theorem run_truncated {exit : Exit}
    (hresult : (run settings validator arguments stdin .boundless).result = .ok exit)
    (limit : Nat) :
    let full := run settings validator arguments stdin .boundless
    let cut := run settings validator arguments stdin (.bounded limit)
    cut.sink.written = full.sink.written.take limit ∧
      (full.sink.written.length ≤ limit → cut.result = full.result) ∧
      (limit < full.sink.written.length → cut.result = .error
        (if Input.ofRun arguments stdin = [] then .output Sink.refusal
          else settings.mode.refusal)) ∧
      cut.validated <+: full.validated ∧
      ∀ texts, Sink.bytesOf (String.join texts) = full.sink.written →
        (Sink.bounded limit).writeAll texts =
          (cut.sink, decide (full.sink.written.length ≤ limit)) := by
  intro full cut
  obtain ⟨hsink, hwhole, hshort, hvalidated⟩ :=
    run_truncates settings validator arguments stdin hresult limit
  refine ⟨?_, hwhole, hshort, hvalidated, fun texts htexts => ?_⟩
  · rw [hsink]
    rfl
  · rw [Sink.writeAll_eq_write, Sink.write, htexts, hsink]
    rfl

/-- Room for the name of an input but not for its verdict, and for a payload without and with
the end of its line. -/
theorem run_truncated_of_small_sinks :
    let lines : Settings :=
      { policy := .everything, mode := .text, theme := .plain, usage := "" }
    let payloads : Settings := { lines with mode := .structured }
    let transcript := fun settings sink =>
      run settings (fun _ => .ok (.string "A")) ["a.raml"] .unread sink
    (transcript lines .boundless).result = .ok .success ∧
      (transcript payloads .boundless).result = .ok .success ∧
      (transcript lines (.bounded 8)).sink.written = Sink.bytesOf "[a.raml]" ∧
      (transcript lines (.bounded 8)).result = .error (.output Sink.refusal) ∧
      (transcript payloads (.bounded 3)).sink.written = Sink.bytesOf "\"A\"" ∧
      (transcript payloads (.bounded 3)).result = .error (.json Sink.refusal) ∧
      (transcript payloads (.bounded 4)).result = .ok .success := by
  intro lines payloads transcript
  have hlines : (transcript lines .boundless).result = .ok .success := by decide +kernel
  have hpayloads : (transcript payloads .boundless).result = .ok .success := by decide +kernel
  obtain ⟨hname, -, houtput, -⟩ := run_truncated lines _ _ _ hlines 8
  obtain ⟨hquoted, -, hjson, -⟩ := run_truncated payloads _ _ _ hpayloads 3
  obtain ⟨-, hwhole, -⟩ := run_truncated payloads _ _ _ hpayloads 4
  refine ⟨hlines, hpayloads, hname.trans ?_, houtput ?_, hquoted.trans ?_, hjson ?_,
    (hwhole ?_).trans hpayloads⟩ <;> decide +kernel

end Run

end RamlCheck
