import RamlCheck.File.Basic

/-!
# Inputs of a run

The arguments of a run name files; the argument `-` stands for standard input.
Standard input that has something to offer is validated first, unless a `-` says
where it belongs.
-/

namespace RamlCheck

/-- Where the content of an input comes from. -/
inductive Origin
  | file
  | standardInput
  deriving DecidableEq, Repr

/-- One document to validate: its name in reports, and where its content comes
from.  The name of a file is its path as given. -/
structure Input where
  name : String
  origin : Origin
  deriving DecidableEq, Repr

namespace Input

/-- The name of standard input in reports. -/
def standardName : String := "STDIN"

/-- The argument that stands for standard input. -/
def placeholder : String := "-"

/-- The file at a path. -/
def file (path : String) : Input :=
  { name := path, origin := .file }

/-- Standard input. -/
def standard : Input :=
  { name := standardName, origin := .standardInput }

/-- Whether an input is standard input. -/
def isStandard (input : Input) : Bool :=
  input.origin = .standardInput

/-- The path of an input, by which its own issues are told from those of included
files. -/
def path (input : Input) : String :=
  input.name

/-- The directory that the references of an input start from. -/
def directory (input : Input) : String :=
  match input.origin with
  | .file => Path.directory input.path
  | .standardInput => ""

/-- The input that an argument names. -/
def ofArgument (argument : String) : Input :=
  if argument = placeholder then standard else file argument

/-- The inputs of a run, in order. -/
def resolve (arguments : List String) (available : Bool) : List Input :=
  let named := arguments.map ofArgument
  if available && !arguments.contains placeholder then standard :: named else named

end Input

end RamlCheck
