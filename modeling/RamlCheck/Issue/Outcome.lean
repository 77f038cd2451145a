import RamlCheck.Input.Basic
import RamlCheck.Issue.Policy

/-!
# Outcome of an input

The paths of findings are relative to the document.  For the report they are
looked up from the directory of the input; a path that then is not the input's
own belongs to an included document.

An input is valid when no issue of it is reported.  Only then does its payload
count.
-/

namespace RamlCheck

/-! ## From findings to issues -/

/-- The issue that a finding of an input makes. -/
def Finding.toIssue (input : Input) (finding : Finding) : Issue :=
  let file := Path.join input.directory finding.path
  { Issue.located { file, line := finding.line, column := finding.column }
      finding.severity finding.message with
    fromIncluded := !Path.equivalent file input.path }

/-- The issues that a failure of an input makes, in the order of its findings. -/
def Failure.issues (input : Input) : Failure → List Issue
  | .generic message => [.generic message]
  | .structured findings _ => findings.map (·.toIssue input)

/-- The payload that a failure carries. -/
def Failure.payload : Failure → Option Json
  | .generic _ => none
  | .structured _ payload => payload

@[simp] theorem Failure.issues_generic (input : Input) (message : String) :
    (Failure.generic message).issues input = [.generic message] := rfl

@[simp] theorem Failure.issues_structured (input : Input) (findings : List Finding)
    (payload : Option Json) :
    (Failure.structured findings payload).issues input = findings.map (·.toIssue input) := rfl

/-! ## Outcomes -/

/-- Whether an input is valid. -/
inductive Status
  | valid
  | invalid
  deriving DecidableEq, Repr

/-- What a run says about one input. -/
structure Outcome where
  input : Input
  status : Status
  issues : List Issue
  payload : Option Json

namespace Outcome

/-- The outcome of a valid input. -/
def valid (input : Input) (payload : Option Json) : Outcome :=
  { input, status := .valid, issues := [], payload }

/-- The outcome of an input with some issues; without any it is valid. -/
def ofIssues (input : Input) (issues : List Issue) (payload : Option Json) : Outcome :=
  if issues.isEmpty then valid input payload
  else { input, status := .invalid, issues, payload := none }

/-- The outcome of an input by what a validator says and a policy keeps. -/
def evaluate (policy : Policy) (input : Input) : Verdict → Outcome
  | .ok payload => valid input (some payload)
  | .error failure => ofIssues input (policy.apply (failure.issues input)) failure.payload

/-- Whether the input is valid. -/
def isValid (outcome : Outcome) : Bool :=
  outcome.status = .valid

theorem isValid_ofIssues (input : Input) (issues : List Issue) (payload : Option Json) :
    (ofIssues input issues payload).isValid = issues.isEmpty := by
  simp only [ofIssues]
  split <;> simp_all [isValid, valid]

theorem issues_ofIssues (input : Input) (issues : List Issue) (payload : Option Json) :
    (ofIssues input issues payload).issues = issues := by
  simp only [ofIssues]
  split
  · next hempty => simp_all [valid]
  · rfl

end Outcome

end RamlCheck
