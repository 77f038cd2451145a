/-!
# Flags of the command line

The program takes files and flags.  Some flags can also be set by a variable of
the environment; a flag that is given wins over its variable.
-/

namespace RamlCheck

/-- A flag of the program. -/
inductive Flag
  | noColor
  | noIncludes
  | noWarnings
  | json
  | debug
  | help
  | version
  deriving DecidableEq, Repr

namespace Flag

/-- All flags, in the order in which they are listed. -/
def all : List Flag :=
  [.noColor, .noIncludes, .noWarnings, .json, .debug, .help, .version]

/-- The name of a flag behind two dashes. -/
def name : Flag → String
  | .noColor => "no-color"
  | .noIncludes => "no-includes"
  | .noWarnings => "no-warnings"
  | .json => "json"
  | .debug => "debug"
  | .help => "help"
  | .version => "version"

/-- A flag as it is written. -/
def text (flag : Flag) : String :=
  "--" ++ flag.name

/-- The letter that stands for a flag behind a single dash. -/
def letter? : Flag → Option Char
  | .help => some 'h'
  | .version => some 'V'
  | _ => none

/-- The variable that sets a flag. -/
def settingName? : Flag → Option String
  | .noColor => some "RAML_COP_NO_COLOR"
  | .noIncludes => some "RAML_COP_NO_INCLUDES"
  | .noWarnings => some "RAML_COP_NO_WARNINGS"
  | .json => some "RAML_COP_JSON"
  | _ => none

/-- What a flag is for. -/
def purpose : Flag → String
  | .noColor => "Disable colored output"
  | .noIncludes => "Do not report issues found in included files"
  | .noWarnings => "Do not report warnings"
  | .json => "Print the parsed documents as JSON when every input is valid"
  | .debug => "Enable debug logging"
  | .help => "Print help"
  | .version => "Print version"

/-- The flag of some name. -/
def ofName? (name : String) : Option Flag :=
  all.find? fun flag => flag.name = name

/-- The flag that a letter stands for. -/
def ofLetter? (letter : Char) : Option Flag :=
  all.find? fun flag => flag.letter? = some letter

theorem ofName?_name (flag : Flag) : ofName? flag.name = some flag := by
  cases flag <;> decide

end Flag

end RamlCheck
