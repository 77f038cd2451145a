import RamlCheck.Input.Standard
import RamlCheck.Report.Reporter

/-!
# A run

A run validates its inputs one after another and reports each outcome before it
turns to the next input.  It ends with success unless an issue was reported, or
before its time when standard input cannot be read or the report cannot be
written.

What a run leaves behind is a `Transcript`: which documents were validated, what
was written and how it ended.
-/

namespace RamlCheck

/-- What a validator is asked to check: a file, or a text with a name. -/
inductive Source
  | file (path : String)
  | content (name text : String)
  deriving DecidableEq, Repr

/-- A validator of documents. -/
abbrev Validator := Source → Verdict

/-- What a run is told beside its arguments. -/
structure Settings where
  policy : Policy
  mode : Mode
  theme : Theme
  usage : String

/-- How a run ends. -/
inductive Exit
  | success
  | issues
  deriving DecidableEq, Repr

/-- The exit code of a run that was not cut short. -/
def Exit.code : Exit → Nat
  | .success => 0
  | .issues => 1

/-- The exit code of a run that was cut short. -/
def fatalCode : Nat := 2

/-- What a run leaves behind. -/
structure Transcript where
  validated : List Source
  sink : Sink
  result : Except Fatal Exit

namespace Run

/-- A run between two inputs. -/
structure Progress where
  stdin : StandardInput
  reporter : Reporter
  validated : List Source
  fatal : Option Fatal

/-- The source that an input is validated from, and standard input afterwards. -/
def sourceOf (stdin : StandardInput) (input : Input) : Except Fatal Source × StandardInput :=
  match input.origin with
  | .file => (.ok (.file input.path), stdin)
  | .standardInput =>
      let (text, stdin) := stdin.text
      (text.map (.content input.name), stdin)

/-- Validates an input and reports its outcome. -/
def step (settings : Settings) (validator : Validator) (progress : Progress)
    (input : Input) : Progress :=
  match sourceOf progress.stdin input with
  | (.error fatal, stdin) => { progress with stdin, fatal := some fatal }
  | (.ok source, stdin) =>
      let outcome := Outcome.evaluate settings.policy input (validator source)
      let (reporter, fatal) := progress.reporter.report outcome
      { stdin, reporter, validated := progress.validated ++ [source], fatal }

/-- Validates inputs until something ends the run. -/
def steps (settings : Settings) (validator : Validator) : Progress → List Input → Progress
  | progress, [] => progress
  | progress, input :: rest =>
      match progress.fatal with
      | some _ => progress
      | none => steps settings validator (step settings validator progress input) rest

/-- Ends a run whose inputs have been validated. -/
def finish (progress : Progress) : Transcript :=
  match progress.fatal with
  | some fatal =>
      { validated := progress.validated, sink := progress.reporter.sink, result := .error fatal }
  | none =>
      let (reporter, fatal) := progress.reporter.flush
      let exit := if reporter.hasIssues then Exit.issues else Exit.success
      { validated := progress.validated
        sink := reporter.sink
        result := match fatal with
          | some fatal => .error fatal
          | none => .ok exit }

/-- A run that has nothing to validate shows how it is used. -/
def showUsage (settings : Settings) (sink : Sink) : Transcript :=
  let (sink, complete) := sink.write settings.usage
  { validated := []
    sink
    result := if complete then .ok .success else .error (.output Sink.refusal) }

end Run

/-- Validates the inputs that some arguments name, and reports the outcomes. -/
def run (settings : Settings) (validator : Validator) (arguments : List String)
    (stdin : StandardInput) (sink : Sink) : Transcript :=
  match Input.resolve arguments (stdin.isAvailable arguments) with
  | [] => Run.showUsage settings sink
  | inputs =>
      Run.finish (Run.steps settings validator
        { stdin
          reporter := Reporter.start settings.mode settings.theme sink
          validated := []
          fatal := none } inputs)

end RamlCheck
