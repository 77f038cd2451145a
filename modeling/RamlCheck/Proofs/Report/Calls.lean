import Mathlib.Data.List.DropRight
import Mathlib.Data.List.Induction
import RamlCheck.Proofs.Report.Sink
import RamlCheck.Report.Reporter

/-!
# Sequences of calls on a reporter

Outcomes may be reported and the report may be flushed in any order and any number of
times.  `call_sequence` says what this leaves behind on a sink without bounds: issues are
counted whatever the mode, a text grows with each outcome, and payloads are printed once
each and in their order, up to the first issue.

## Strategy

One equation for each call and mode says all that the call does (`report_text` and what
follows it).  What a reporter of payloads has counted, collected and printed after some
calls is `Gathers`; a single call keeps it.  The induction takes the last call off, since
a flush prints what was reported since the one before (`Call.sinceFlush`).
-/

namespace RamlCheck.Reporter

/-! ## One call -/

section

variable {reporter : Reporter}

/-- A report as a text tells whether an input is valid and the issues, not the payload. -/
theorem report_congr (hmode : reporter.mode = .text)
    {first second : Outcome} (hinput : first.input = second.input)
    (hvalid : first.isValid = second.isValid) (hissues : first.issues = second.issues) :
    reporter.report first = reporter.report second := by
  simp only [report, hmode, Report.text, Report.lines, hinput, hvalid, hissues]

theorem mode_report (reporter : Reporter) (outcome : Outcome) :
    (reporter.report outcome).1.mode = reporter.mode := by
  unfold report
  split
  · next hmode => simp only [write, hmode]
  · rfl

theorem issueCount_report (reporter : Reporter) (outcome : Outcome) :
    (reporter.report outcome).1.issueCount = reporter.issueCount + outcome.issues.length := by
  unfold report
  split <;> rfl

theorem issueCount_flush (reporter : Reporter) :
    reporter.flush.1.issueCount = reporter.issueCount := by
  unfold flush
  split
  · rfl
  · split <;> rfl

theorem hasIssues_eq_false_iff : reporter.hasIssues = false ↔ reporter.issueCount = 0 := by
  simp [hasIssues]

/-- A sink without bounds takes every text. -/
theorem write_boundless (hroom : reporter.sink.room = none) (fatal : String → Fatal)
    (text : String) :
    reporter.write fatal text =
      ({ reporter with
          sink := { reporter.sink with
            written := reporter.sink.written ++ Sink.bytesOf text } }, none) := by
  simp only [write, Sink.write, Sink.push, Sink.fits, hroom, if_true]

/-- A report as a text writes the lines of an outcome. -/
theorem report_eq_write (hmode : reporter.mode = .text) (outcome : Outcome) :
    reporter.report outcome =
      { reporter with issueCount := reporter.issueCount + outcome.issues.length }.write .output
        (Report.text reporter.theme outcome) := by
  simp only [report, hmode]

/-- A sink without bounds takes the lines of an outcome. -/
theorem report_text (hmode : reporter.mode = .text) (hroom : reporter.sink.room = none)
    (outcome : Outcome) :
    reporter.report outcome =
      ({ reporter with
          issueCount := reporter.issueCount + outcome.issues.length
          sink :=
            { reporter.sink with
              written := reporter.sink.written ++
                Sink.bytesOf (Report.text reporter.theme outcome) } }, none) := by
  rw [report_eq_write hmode]
  refine write_boundless ?_ _ _
  exact hroom

/-- In a report of payloads an outcome is counted and its payload collected. -/
theorem report_structured (hmode : reporter.mode = .structured) (outcome : Outcome) :
    reporter.report outcome =
      ({ reporter with
          issueCount := reporter.issueCount + outcome.issues.length
          collected := reporter.collected ++
            if outcome.isValid then outcome.payload.toList else [] }, none) := by
  simp only [report, hmode]

theorem flush_text (hmode : reporter.mode = .text) : reporter.flush = (reporter, none) := by
  simp only [flush, hmode]

theorem flush_of_issues (hmode : reporter.mode = .structured) (hcount : reporter.issueCount ≠ 0) :
    reporter.flush = (reporter, none) := by
  have hissues : reporter.hasIssues = true := by simpa [hasIssues] using hcount
  simp only [flush, hmode, hissues, if_true]

/-- Without an issue, a flush writes what was collected. -/
theorem flush_eq_write (hmode : reporter.mode = .structured) (hcount : reporter.issueCount = 0) :
    reporter.flush =
      { reporter with collected := [] }.write .json (payloadText reporter.collected) := by
  simp only [flush, hmode, hasIssues_eq_false_iff.mpr hcount, Bool.false_eq_true, if_false]

/-- Without an issue, what was collected is printed and given up. -/
theorem flush_of_no_issue (hmode : reporter.mode = .structured)
    (hroom : reporter.sink.room = none) (hcount : reporter.issueCount = 0) :
    reporter.flush =
      ({ reporter with
          collected := []
          sink :=
            { reporter.sink with
              written := reporter.sink.written ++
                Sink.bytesOf (payloadText reporter.collected) } }, none) := by
  rw [flush_eq_write hmode hcount]
  refine write_boundless ?_ _ _
  exact hroom

theorem report_boundless (hroom : reporter.sink.room = none) (outcome : Outcome) :
    (reporter.report outcome).2 = none ∧ (reporter.report outcome).1.sink.room = none := by
  cases hmode : reporter.mode with
  | text =>
      rw [report_text hmode hroom]
      exact ⟨rfl, hroom⟩
  | structured =>
      rw [report_structured hmode]
      exact ⟨rfl, hroom⟩

theorem flush_boundless (hroom : reporter.sink.room = none) : reporter.flush.2 = none := by
  cases hmode : reporter.mode with
  | text => rw [flush_text hmode]
  | structured =>
      by_cases hcount : reporter.issueCount = 0
      · rw [flush_of_no_issue hmode hroom hcount]
      · rw [flush_of_issues hmode hcount]

end

/-! ## Any sequence of calls -/

/-- What can be asked of a reporter. -/
inductive Call
  | report (outcome : Outcome)
  | flush

namespace Call

/-- The issues that a call reports. -/
def issues : Call → List Issue
  | .report outcome => outcome.issues
  | .flush => []

/-- The payload that a call reports, which counts if the outcome is valid. -/
def payloads : Call → List Json
  | .report outcome => if outcome.isValid then outcome.payload.toList else []
  | .flush => []

/-- Whether a call reports an outcome. -/
def isReport : Call → Bool
  | .report _ => true
  | .flush => false

/-- The calls behind the last flush. -/
def sinceFlush (calls : List Call) : List Call :=
  calls.rtakeWhile isReport

@[simp] theorem sinceFlush_report (calls : List Call) (outcome : Outcome) :
    sinceFlush (calls ++ [.report outcome]) = sinceFlush calls ++ [.report outcome] :=
  List.rtakeWhile_concat_pos _ _ _ rfl

@[simp] theorem sinceFlush_flush (calls : List Call) : sinceFlush (calls ++ [.flush]) = [] :=
  List.rtakeWhile_concat_neg _ _ _ Bool.false_ne_true

end Call

/-- A reporter after a call, and why the call failed if it did. -/
def call (reporter : Reporter) : Call → Reporter × Option Fatal
  | .report outcome => reporter.report outcome
  | .flush => reporter.flush

/-- A reporter after some calls. -/
def after (reporter : Reporter) (calls : List Call) : Reporter :=
  calls.foldl (fun reporter call => (reporter.call call).1) reporter

theorem after_append (reporter : Reporter) (first second : List Call) :
    reporter.after (first ++ second) = (reporter.after first).after second :=
  List.foldl_append

theorem after_concat (reporter : Reporter) (calls : List Call) (call : Call) :
    reporter.after (calls ++ [call]) = ((reporter.after calls).call call).1 :=
  after_append reporter calls [call]

theorem issueCount_call (reporter : Reporter) (call : Call) :
    (reporter.call call).1.issueCount = reporter.issueCount + call.issues.length := by
  cases call with
  | report outcome => exact issueCount_report reporter outcome
  | flush => exact issueCount_flush reporter

/-- The issue count is the number of issues of all outcomes. -/
theorem issueCount_after (reporter : Reporter) (calls : List Call) :
    (reporter.after calls).issueCount =
      reporter.issueCount + (calls.flatMap Call.issues).length := by
  induction calls using List.reverseRecOn with
  | nil => rfl
  | append_singleton calls call ih =>
      rw [after_concat, issueCount_call, ih, List.flatMap_append, List.length_append,
        List.flatMap_singleton, Nat.add_assoc]

theorem call_boundless {reporter : Reporter} (hroom : reporter.sink.room = none) (call : Call) :
    (reporter.call call).2 = none := by
  cases call with
  | report outcome => exact (report_boundless hroom outcome).1
  | flush => exact flush_boundless hroom

/-! ### A text -/

/-- A report as a text on a sink without bounds, which collects nothing. -/
structure Tells (theme : Theme) (reporter : Reporter) : Prop where
  mode : reporter.mode = .text
  theme : reporter.theme = theme
  room : reporter.sink.room = none
  collected : reporter.collected = []

theorem Tells.call {theme : Theme} {reporter : Reporter} (htells : Tells theme reporter)
    (call : Call) : Tells theme (reporter.call call).1 := by
  cases call with
  | report outcome =>
      rw [Reporter.call, report_text htells.mode htells.room]
      exact ⟨htells.mode, htells.theme, htells.room, htells.collected⟩
  | flush =>
      rw [Reporter.call, flush_text htells.mode]
      exact htells

theorem Tells.after {theme : Theme} {reporter : Reporter} (htells : Tells theme reporter)
    (calls : List Call) : Tells theme (reporter.after calls) := by
  induction calls using List.reverseRecOn with
  | nil => exact htells
  | append_singleton calls call ih =>
      rw [after_concat]
      exact ih.call call

/-! ### Payloads -/

/-- What a reporter of payloads has counted, collected and printed after some calls:
`batches` are the payloads of its flushes, and a flush behind an issue adds none. -/
structure Gathers (calls : List Call) (batches : List (List Json)) (reporter : Reporter) :
    Prop where
  mode : reporter.mode = .structured
  room : reporter.sink.room = none
  count : reporter.issueCount = (calls.flatMap Call.issues).length
  written : reporter.sink.written = Sink.bytesOf (String.join (batches.map payloadText))
  collected : calls.flatMap Call.issues = [] →
    reporter.collected = (Call.sinceFlush calls).flatMap Call.payloads ∧
      batches.flatten ++ reporter.collected = calls.flatMap Call.payloads
  printed : batches.flatten <+: calls.flatMap Call.payloads

section

variable {calls : List Call} {batches : List (List Json)} {reporter : Reporter}

theorem Gathers.report (hgathers : Gathers calls batches reporter) (outcome : Outcome) :
    Gathers (calls ++ [.report outcome]) batches (reporter.report outcome).1 := by
  rw [report_structured hgathers.mode]
  refine ⟨hgathers.mode, hgathers.room, ?_, hgathers.written, fun hnone => ?_, ?_⟩
  · rw [List.flatMap_append, List.length_append, List.flatMap_singleton, ← hgathers.count]
    rfl
  · rw [List.flatMap_append, List.append_eq_nil_iff] at hnone
    obtain ⟨hcollected, hall⟩ := hgathers.collected hnone.1
    constructor
    · rw [Call.sinceFlush_report, List.flatMap_append, List.flatMap_singleton, ← hcollected]
      rfl
    · rw [List.flatMap_append, List.flatMap_singleton, ← hall, List.append_assoc]
      rfl
  · rw [List.flatMap_append]
    exact hgathers.printed.trans (List.prefix_append _ _)

theorem flatMap_issues_flush (calls : List Call) :
    (calls ++ [Call.flush]).flatMap Call.issues = calls.flatMap Call.issues := by
  rw [List.flatMap_append, List.flatMap_singleton, Call.issues, List.append_nil]

theorem flatMap_payloads_flush (calls : List Call) :
    (calls ++ [Call.flush]).flatMap Call.payloads = calls.flatMap Call.payloads := by
  rw [List.flatMap_append, List.flatMap_singleton, Call.payloads, List.append_nil]

theorem Gathers.issueCount_eq_zero_iff (hgathers : Gathers calls batches reporter) :
    reporter.issueCount = 0 ↔ calls.flatMap Call.issues = [] := by
  rw [hgathers.count, List.length_eq_zero_iff]

/-- Without an issue, a flush prints what was collected since the one before. -/
theorem Gathers.flush_of_no_issue (hgathers : Gathers calls batches reporter)
    (hnone : calls.flatMap Call.issues = []) :
    Gathers (calls ++ [.flush]) (batches ++ [reporter.collected]) reporter.flush.1 := by
  have hflatten : (batches ++ [reporter.collected]).flatten = calls.flatMap Call.payloads := by
    rw [List.flatten_append, List.flatten_singleton, (hgathers.collected hnone).2]
  rw [Reporter.flush_of_no_issue hgathers.mode hgathers.room
    (hgathers.issueCount_eq_zero_iff.mpr hnone)]
  refine ⟨hgathers.mode, hgathers.room, ?_, ?_, fun _ => ⟨?_, ?_⟩, ?_⟩
  · rw [flatMap_issues_flush]
    exact hgathers.count
  · rw [hgathers.written, ← Sink.bytesOf_append, List.map_append, String.join_append,
      List.map_singleton, String.join_cons, String.join_nil, String.append_empty]
  · rw [Call.sinceFlush_flush, List.flatMap_nil]
  · rw [flatMap_payloads_flush, List.append_nil, hflatten]
  · exact ⟨[], by rw [List.append_nil, flatMap_payloads_flush, hflatten]⟩

/-- Behind an issue, a flush does nothing. -/
theorem Gathers.flush_of_issues (hgathers : Gathers calls batches reporter)
    (hsome : calls.flatMap Call.issues ≠ []) :
    reporter.flush.1 = reporter ∧ Gathers (calls ++ [.flush]) batches reporter := by
  have hcount : reporter.issueCount ≠ 0 := fun hzero =>
    hsome (hgathers.issueCount_eq_zero_iff.mp hzero)
  refine ⟨by rw [Reporter.flush_of_issues hgathers.mode hcount], hgathers.mode, hgathers.room, ?_,
    hgathers.written, fun hnone => ?_, ?_⟩
  · rw [flatMap_issues_flush]
    exact hgathers.count
  · rw [flatMap_issues_flush] at hnone
    exact absurd hnone hsome
  · rw [flatMap_payloads_flush]
    exact hgathers.printed

end

/-- A reporter of payloads before the first call. -/
theorem gathers_start (theme : Theme) : Gathers [] [] (start .structured theme .boundless) :=
  ⟨rfl, rfl, rfl, Sink.bytesOf_empty.symm, fun _ => ⟨rfl, rfl⟩, List.nil_prefix⟩

theorem exists_gathers (theme : Theme) (calls : List Call) :
    ∃ batches, Gathers calls batches ((start .structured theme .boundless).after calls) := by
  induction calls using List.reverseRecOn with
  | nil => exact ⟨[], gathers_start theme⟩
  | append_singleton calls call ih =>
      obtain ⟨batches, hgathers⟩ := ih
      rw [after_concat]
      cases call with
      | report outcome => exact ⟨batches, hgathers.report outcome⟩
      | flush =>
          by_cases hnone : calls.flatMap Call.issues = []
          · exact ⟨_, hgathers.flush_of_no_issue hnone⟩
          · obtain ⟨hsame, hnext⟩ := hgathers.flush_of_issues hnone
            refine ⟨batches, ?_⟩
            rw [Reporter.call, hsame]
            exact hnext

/-- Behind an issue, nothing is ever written. -/
theorem sink_after_of_issues (theme : Theme) {calls : List Call}
    (hsome : calls.flatMap Call.issues ≠ []) (more : List Call) :
    ((start .structured theme .boundless).after (calls ++ more)).sink =
      ((start .structured theme .boundless).after calls).sink := by
  induction more using List.reverseRecOn with
  | nil => rw [List.append_nil]
  | append_singleton more call ih =>
      obtain ⟨batches, hgathers⟩ := exists_gathers theme (calls ++ more)
      rw [← List.append_assoc, after_concat, ← ih]
      cases call with
      | report outcome => rw [Reporter.call, report_structured hgathers.mode]
      | flush =>
          have hboth : (calls ++ more).flatMap Call.issues ≠ [] := by
            rw [List.flatMap_append]
            exact List.append_ne_nil_of_left_ne_nil hsome _
          rw [Reporter.call, (hgathers.flush_of_issues hboth).1]

/-- Calls on a reporter, in any order, on a sink without bounds.  No call fails, and the
issues of all outcomes are counted.  In a text nothing is collected, each outcome adds its
lines and a flush does nothing.  In a report of payloads only a flush writes: as long as no
issue was reported it prints the payloads of the valid outcomes since the flush before, and
they are collected no more; once an issue was reported nothing is written.  So the payloads
that have been printed are the first ones of all payloads, in their order. -/
theorem call_sequence (theme : Theme) (calls : List Call) :
    let text := (start .text theme .boundless).after
    let structured := (start .structured theme .boundless).after
    (∀ mode, ((start mode theme .boundless).after calls).issueCount =
        (calls.flatMap Call.issues).length ∧
      ∀ call, (((start mode theme .boundless).after calls).call call).2 = none) ∧
    ((text calls).collected = [] ∧ text (calls ++ [.flush]) = text calls ∧
      ∀ outcome, (text (calls ++ [.report outcome])).sink.written =
        (text calls).sink.written ++ Sink.bytesOf (Report.text theme outcome)) ∧
    (∀ outcome, (structured (calls ++ [.report outcome])).sink = (structured calls).sink) ∧
    (calls.flatMap Call.issues = [] →
      (structured (calls ++ [.flush])).sink.written = (structured calls).sink.written ++
          Sink.bytesOf (payloadText ((Call.sinceFlush calls).flatMap Call.payloads)) ∧
        (structured (calls ++ [.flush])).collected = []) ∧
    (calls.flatMap Call.issues ≠ [] → ∀ more,
      (structured (calls ++ more)).sink = (structured calls).sink) ∧
    ∃ batches : List (List Json),
      (structured calls).sink.written = Sink.bytesOf (String.join (batches.map payloadText)) ∧
        batches.flatten <+: calls.flatMap Call.payloads ∧
        (calls.flatMap Call.issues = [] →
          batches.flatten ++ (Call.sinceFlush calls).flatMap Call.payloads =
            calls.flatMap Call.payloads) := by
  intro text structured
  have hstart : Tells theme (start .text theme .boundless) := ⟨rfl, rfl, rfl, rfl⟩
  have htells := hstart.after calls
  obtain ⟨batches, hgathers⟩ := exists_gathers theme calls
  refine ⟨fun mode => ⟨?_, fun call => ?_⟩, ⟨htells.collected, ?_, fun outcome => ?_⟩,
    fun outcome => ?_, fun hnone => ?_, fun hsome => sink_after_of_issues theme hsome,
    batches, hgathers.written, hgathers.printed, fun hnone => ?_⟩
  · -- the count does not depend on the mode
    rw [issueCount_after, start, Nat.zero_add]
  · cases mode with
    | text => exact call_boundless htells.room call
    | structured => exact call_boundless hgathers.room call
  · show (start .text theme .boundless).after (calls ++ [.flush]) = _
    rw [after_concat, Reporter.call, flush_text htells.mode]
  · show ((start .text theme .boundless).after (calls ++ [.report outcome])).sink.written = _
    rw [after_concat, Reporter.call, report_text htells.mode htells.room, htells.theme]
  · show ((start .structured theme .boundless).after (calls ++ [.report outcome])).sink = _
    rw [after_concat, Reporter.call, report_structured hgathers.mode]
  · -- a flush without issues prints what has been collected since the one before
    show ((start .structured theme .boundless).after (calls ++ [.flush])).sink.written = _ ∧
      ((start .structured theme .boundless).after (calls ++ [.flush])).collected = []
    rw [after_concat, Reporter.call, flush_of_no_issue hgathers.mode hgathers.room
      (hgathers.issueCount_eq_zero_iff.mpr hnone), (hgathers.collected hnone).1]
    exact ⟨rfl, rfl⟩
  · rw [← (hgathers.collected hnone).1]
    exact (hgathers.collected hnone).2

/-- An issue behind a flush: what was printed stays, and what was collected since is never
printed. -/
theorem call_sequence_of_late_issue :
    let structured := (start .structured .plain .boundless).after
    let calls : List Call :=
      [.report (.valid (.file "a.raml") (some (.string "A"))), .flush,
        .report (.valid (.file "b.raml") (some .null))]
    let late := calls ++ [.report (.ofIssues (.file "c.raml") [.generic "x"] none)]
    calls.flatMap Call.issues = [] ∧ late.flatMap Call.issues ≠ [] ∧
      (structured (calls ++ [.flush])).sink.written = Sink.bytesOf "\"A\"\nnull\n" ∧
      (structured (late ++ [.flush])).sink.written = Sink.bytesOf "\"A\"\n" := by
  intro structured calls late
  have hcalls : calls.flatMap Call.issues = [] := rfl
  have hlate : late.flatMap Call.issues ≠ [] := by decide +kernel
  obtain ⟨-, -, -, hflush, -⟩ := call_sequence .plain calls
  obtain ⟨-, -, -, -, hstop, -⟩ := call_sequence .plain late
  refine ⟨hcalls, hlate, (hflush hcalls).1.trans ?_, ?_⟩
  · decide +kernel
  · rw [hstop hlate [.flush]]
    decide +kernel

end RamlCheck.Reporter
