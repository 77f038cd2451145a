import RamlCheck.Json.Basic

/-!
# Findings and issues

A validator reports `Finding`s, placed in the document or in a file it refers to
by a path relative to the document.  The report speaks of `Issue`s, placed by
paths as the user would write them.
-/

namespace RamlCheck

/-- How much an issue weighs. -/
inductive Severity
  | warning
  | error
  deriving DecidableEq, Repr

/-- The word for a severity. -/
def Severity.text : Severity → String
  | .warning => "warning"
  | .error => "error"

/-- What a validator found at some place.  The path is relative to the directory
of the document; lines and columns count from one. -/
structure Finding where
  path : String
  line : Nat
  column : Nat
  message : String
  isWarning : Bool
  deriving DecidableEq, Repr

/-- The severity of a finding. -/
def Finding.severity (finding : Finding) : Severity :=
  if finding.isWarning then .warning else .error

/-- Why a document did not validate. -/
inductive Failure
  /-- The document could not be entered at all. -/
  | generic (message : String)
  /-- There are findings; the payload counts if every one of them is dropped. -/
  | structured (findings : List Finding) (payload : Option Json)
  deriving Repr

/-- What a validator says about a document: its payload, or why it failed. -/
abbrev Verdict := Except Failure Json

/-- A place in a file. -/
structure Location where
  file : String
  line : Nat
  column : Nat
  deriving DecidableEq, Repr

/-- A place as it is shown. -/
def Location.text (location : Location) : String :=
  location.file ++ ":" ++ toString location.line ++ ":" ++ toString location.column

/-- An issue of one input.  A failure to enter a document has no location. -/
structure Issue where
  location : Option Location
  message : String
  severity : Severity
  fromIncluded : Bool
  deriving DecidableEq, Repr

namespace Issue

/-- An error without a place. -/
def generic (message : String) : Issue :=
  { location := none, message, severity := .error, fromIncluded := false }

/-- An issue at a place in the document itself. -/
def located (location : Location) (severity : Severity) (message : String) : Issue :=
  { location := some location, message, severity, fromIncluded := false }

/-- Whether an issue is a warning. -/
def isWarning (issue : Issue) : Bool :=
  issue.severity = .warning

end Issue

end RamlCheck
