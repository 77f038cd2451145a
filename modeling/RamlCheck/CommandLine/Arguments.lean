import RamlCheck.CommandLine.Help
import RamlCheck.CommandLine.Similarity
import RamlCheck.Issue.Policy
import RamlCheck.Report.Reporter

/-!
# Arguments of the program

Arguments are read from left to right.  One that starts with a dash is a flag,
except for a single dash, and except behind `--`; the others are files.  Reading
ends at the first argument that is refused, or that asks for help or the version.

Variables of the environment are looked at last, in the order of the flags.
-/

namespace RamlCheck.CommandLine

/-- What the program is asked to do. -/
structure Arguments where
  files : List String
  noColor : Bool
  noIncludes : Bool
  noWarnings : Bool
  json : Bool
  debug : Bool
  deriving DecidableEq, Repr

namespace Arguments

/-- The policy that the flags select. -/
def policy (arguments : Arguments) : Policy :=
  { includes := !arguments.noIncludes, warnings := !arguments.noWarnings }

/-- The mode that the flags select. -/
def mode (arguments : Arguments) : Mode :=
  if arguments.json then .structured else .text

end Arguments

/-! ## Refusals -/

/-- The flags given so far, and whether a file was. -/
structure Given where
  /-- The flags in the order in which they were given. -/
  flags : List Flag
  files : List String
  deriving DecidableEq, Repr

/-- Why arguments do not make the program run. -/
inductive Refusal
  | help
  | version
  | repeated (flag : Flag)
  | unneededValue (flag : Flag) (value : String) (given : Given)
  | unknown (argument : String) (similar : Option Flag) (given : Given)
  | unknownLetter (letter : Char)
  | badValue (flag : Flag) (value : String)
  deriving DecidableEq, Repr

/-- The values that a variable may have. -/
def truthValues : List String := ["true", "false"]

namespace Refusal

/-- The exit code of a refusal.  Help and the version are no errors. -/
def code : Refusal → Nat
  | .help => 0
  | .version => 0
  | _ => 2

/-- The line that points to the help text. -/
def helpHint : String :=
  "\n\nFor more information, try '--help'.\n"

/-- The flags given, and some more that have not been. -/
def withFlag (given : Given) (flag : Option Flag) : List Flag :=
  match flag with
  | none => given.flags
  | some flag => if given.flags.contains flag then given.flags else given.flags ++ [flag]

/-- The usage behind a flag that is not known. -/
def usageOf (given : Given) (similar : Option Flag) : String :=
  let flags := withFlag given similar
  if flags.isEmpty && given.files.isEmpty then generalUsage else usageWith flags

/-- The tip for an argument that could be meant as a file. -/
def valueTip (argument : String) : String :=
  "to pass '" ++ argument ++ "' as a value, use '-- " ++ argument ++ "'"

/-- The message about an argument that is not known. -/
def unknownMessage (argument tip usage : String) : String :=
  "error: unexpected argument '" ++ argument ++ "' found\n\n  tip: " ++ tip ++ "\n\n" ++ usage
    ++ helpHint

/-- The message about the value of a variable. -/
def valueMessage (flag : Flag) (value : String) : String :=
  let problem :=
    if value = "" then
      "a value is required for '" ++ flag.text ++ "' but none was supplied"
    else "invalid value '" ++ value ++ "' for '" ++ flag.text ++ "'"
  let tip :=
    match Similarity.best? value truthValues with
    | some similar => "\n\n  tip: a similar value exists: '" ++ similar ++ "'"
    | none => ""
  "error: " ++ problem ++ "\n  [possible values: " ++ ", ".intercalate truthValues ++ "]" ++ tip
    ++ helpHint

/-- The message of a refusal. -/
def message (environment : Environment) : Refusal → String
  | .help => helpText environment
  | .version => versionText
  | .repeated flag =>
      "error: the argument '" ++ flag.text ++ "' cannot be used multiple times\n\n"
        ++ generalUsage ++ helpHint
  | .unneededValue flag value given =>
      "error: unexpected value '" ++ value ++ "' for '" ++ flag.text
        ++ "' found; no more were expected\n\n" ++ usageWith (withFlag given (some flag))
        ++ helpHint
  | .unknown argument similar given =>
      let tip :=
        match similar with
        | some flag => "a similar argument exists: '" ++ flag.text ++ "'"
        | none => valueTip argument
      unknownMessage argument tip (usageOf given similar)
  | .unknownLetter letter =>
      let argument := "-" ++ letter.toString
      unknownMessage argument (valueTip argument) generalUsage
  | .badValue flag value => valueMessage flag value

end Refusal

/-! ## Reading -/

/-- Takes a flag. -/
def takeFlag (given : Given) (flag : Flag) : Except Refusal Given :=
  match flag with
  | .help => .error .help
  | .version => .error .version
  | flag =>
      if given.flags.contains flag then .error (.repeated flag)
      else .ok { given with flags := given.flags ++ [flag] }

/-- Takes a flag that is written out, perhaps with a value behind an equals
sign. -/
def takeName (given : Given) (written : List Char) : Except Refusal Given :=
  let name := String.ofList (written.takeWhile (· ≠ '='))
  let behind := written.dropWhile (· ≠ '=')
  match Flag.ofName? name with
  | none =>
      let similar := (Similarity.best? name (Flag.all.map Flag.name)).bind Flag.ofName?
      .error (.unknown ("--" ++ name) similar given)
  | some flag =>
      match behind with
      | [] => takeFlag given flag
      | _ :: value => .error (.unneededValue flag (String.ofList value) given)

/-- Takes the letters behind a single dash. -/
def takeLetters (given : Given) : List Char → Except Refusal Given
  | [] => .ok given
  | letter :: rest =>
      match Flag.ofLetter? letter with
      | none => .error (.unknownLetter letter)
      | some flag =>
          match takeFlag given flag with
          | .error refusal => .error refusal
          | .ok given => takeLetters given rest

/-- Takes all arguments. -/
def takeAll (given : Given) : List String → Except Refusal Given
  | [] => .ok given
  | argument :: rest =>
      let taken : Except Refusal Given :=
        match argument.toList with
        | '-' :: '-' :: written => takeName given written
        | '-' :: first :: letters => takeLetters given (first :: letters)
        | _ => .ok { given with files := given.files ++ [argument] }
      if argument = "--" then .ok { given with files := given.files ++ rest }
      else
        match taken with
        | .error refusal => .error refusal
        | .ok given => takeAll given rest

/-- Whether a flag is set, by itself or by its variable. -/
def isSet (environment : Environment) (given : Given) (flag : Flag) : Except Refusal Bool :=
  if given.flags.contains flag then .ok true
  else
    match flag.settingName?.bind fun name => environment.lookup name with
    | none => .ok false
    | some value =>
        if value = "true" then .ok true
        else if value = "false" then .ok false
        else .error (.badValue flag value)

/-- Reads the arguments of the program. -/
def parse (environment : Environment) (arguments : List String) : Except Refusal Arguments := do
  let given ← takeAll { flags := [], files := [] } arguments
  let noColor ← isSet environment given .noColor
  let noIncludes ← isSet environment given .noIncludes
  let noWarnings ← isSet environment given .noWarnings
  let json ← isSet environment given .json
  let debug ← isSet environment given .debug
  return { files := given.files, noColor, noIncludes, noWarnings, json, debug }

end RamlCheck.CommandLine
