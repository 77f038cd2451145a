import RamlCheck.Issue.Outcome

/-!
# Lines of a report

An outcome is shown as one line if the input is valid, and as one line for each
issue otherwise.  A theme colours the verdict and the messages, never the source
in brackets.
-/

namespace RamlCheck

/-- How a text is shown: as it is, or in a colour of the terminal. -/
inductive Style
  | plain
  | colour (code : Nat)
  deriving DecidableEq, Repr

/-- A text in some style. -/
def Style.show (style : Style) (text : String) : String :=
  match style with
  | .plain => text
  | .colour code => "\x1b[" ++ toString code ++ "m" ++ text ++ "\x1b[0m"

/-- The styles of a report. -/
structure Theme where
  valid : Style
  error : Style
  warning : Style
  deriving DecidableEq, Repr

namespace Theme

/-- A report without colours. -/
def plain : Theme :=
  { valid := .plain, error := .plain, warning := .plain }

/-- A green verdict, red errors and yellow warnings. -/
def coloured : Theme :=
  { valid := .colour 32, error := .colour 31, warning := .colour 33 }

/-- Colours are for terminals, unless they are turned off. -/
def choose (colourOff isTerminal : Bool) : Theme :=
  if !colourOff && isTerminal then coloured else plain

/-- The style of messages of some severity. -/
def ofSeverity (theme : Theme) : Severity → Style
  | .warning => theme.warning
  | .error => theme.error

end Theme

namespace Report

/-- The verdict on a valid input. -/
def validText : String := "VALID"

/-- A line of a report. -/
def line (source message : String) : String :=
  "[" ++ source ++ "] " ++ message ++ "\n"

/-- The source of an issue: its location, or the input. -/
def sourceOf (input : Input) (issue : Issue) : String :=
  match issue.location with
  | some location => location.text
  | none => input.name

/-- The line of an issue. -/
def issueLine (theme : Theme) (input : Input) (issue : Issue) : String :=
  line (sourceOf input issue) ((theme.ofSeverity issue.severity).show issue.message)

/-- The lines of an outcome. -/
def lines (theme : Theme) (outcome : Outcome) : List String :=
  if outcome.isValid then [line outcome.input.name (theme.valid.show validText)]
  else outcome.issues.map (issueLine theme outcome.input)

/-- The text of an outcome. -/
def text (theme : Theme) (outcome : Outcome) : String :=
  String.join (lines theme outcome)

end Report

end RamlCheck
