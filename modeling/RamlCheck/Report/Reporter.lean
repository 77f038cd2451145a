import RamlCheck.File.Basic
import RamlCheck.Json.Printer
import RamlCheck.Report.Sink
import RamlCheck.Report.Theme

/-!
# Reporting outcomes

A report is either a text that grows with each outcome, or one JSON value of all
payloads that is written at the end, and only if no issue was reported.  Issues
are counted in both modes.
-/

namespace RamlCheck

/-- How outcomes are reported. -/
inductive Mode
  | text
  | structured
  deriving DecidableEq, Repr

/-- A report under way: how it is written, what has been counted and collected,
and where it goes. -/
structure Reporter where
  mode : Mode
  theme : Theme
  issueCount : Nat
  collected : List Json
  sink : Sink

namespace Reporter

/-- A report before the first outcome. -/
def start (mode : Mode) (theme : Theme) (sink : Sink) : Reporter :=
  { mode, theme, issueCount := 0, collected := [], sink }

/-- Whether an issue was reported. -/
def hasIssues (reporter : Reporter) : Bool :=
  reporter.issueCount ≠ 0

/-- Writes a text; a refusal ends the run with the error that `fatal` makes. -/
def write (reporter : Reporter) (fatal : String → Fatal) (text : String) :
    Reporter × Option Fatal :=
  let (sink, complete) := reporter.sink.write text
  ({ reporter with sink }, if complete then none else some (fatal Sink.refusal))

/-- Reports an outcome. -/
def report (reporter : Reporter) (outcome : Outcome) : Reporter × Option Fatal :=
  let counted := { reporter with issueCount := reporter.issueCount + outcome.issues.length }
  match reporter.mode with
  | .text => counted.write .output (Report.text reporter.theme outcome)
  | .structured =>
      let payloads := if outcome.isValid then outcome.payload.toList else []
      ({ counted with collected := reporter.collected ++ payloads }, none)

/-- The text of collected payloads: nothing for none, the payload itself for a
single one, and a list for several. -/
def payloadText : List Json → String
  | [] => ""
  | [payload] => payload.pretty ++ "\n"
  | payloads => (Json.array payloads).pretty ++ "\n"

/-- Ends the report: what was collected is written if no issue was reported. -/
def flush (reporter : Reporter) : Reporter × Option Fatal :=
  match reporter.mode with
  | .text => (reporter, none)
  | .structured =>
      if reporter.hasIssues then (reporter, none)
      else
        { reporter with collected := [] }.write .json (payloadText reporter.collected)

end Reporter

end RamlCheck
