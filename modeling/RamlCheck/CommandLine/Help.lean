import RamlCheck.CommandLine.Flag

/-!
# Help on the command line

The help text lists the flags with what they are for, and the values of their
variables in the environment.
-/

namespace RamlCheck.CommandLine

/-- The variables of the environment with their values. -/
abbrev Environment := List (String × String)

/-- The name of the program. -/
def programName : String := "raml-cop"

/-- The name and the version of the program. -/
def versionText : String :=
  programName ++ " 1.0.0\n"

/-- How the files are written in help and messages. -/
def filesText : String := "[FILE]..."

/-- What the program is called with, as help and messages show it. -/
def usageLine (options : List String) : String :=
  "Usage: " ++ " ".intercalate (programName :: options ++ [filesText])

/-- The usage without any flags in particular. -/
def generalUsage : String :=
  usageLine ["[OPTIONS]"]

/-- What the program is called with when some flags are. -/
def usageWith (flags : List Flag) : String :=
  usageLine (flags.map Flag.text)

/-- The width of the column that holds the flags. -/
def flagWidth : Nat := 15

/-- A flag in the list of flags. -/
def flagLine (environment : Environment) (flag : Flag) : String :=
  let letter :=
    match flag.letter? with
    | some letter => "  -" ++ letter.toString ++ ", "
    | none => "      "
  let padding := String.ofList (List.replicate (flagWidth - flag.text.length) ' ')
  let setting :=
    match flag.settingName? with
    | some name => " [env: " ++ name ++ "=" ++ (environment.lookup name).getD "" ++ "]"
    | none => ""
  letter ++ flag.text ++ padding ++ flag.purpose ++ setting ++ "\n"

/-- The help text. -/
def helpText (environment : Environment) : String :=
  "Command-line validator for RAML API description documents\n\n"
    ++ generalUsage ++ "\n\nArguments:\n  " ++ filesText
    ++ "  RAML files to validate (use - for standard input)\n\nOptions:\n"
    ++ String.join (Flag.all.map (flagLine environment))

end RamlCheck.CommandLine
