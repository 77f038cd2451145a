import RamlCheck.Json.Reader
import RamlCheck.Rule.Basic

/-!
# Included files can be read

Every reference names a file that can be read, and one that is to be YAML or JSON
is.  A file that cannot be read is found at the reference, what is wrong inside a
file is found there.
-/

namespace RamlCheck.Rule

/-- What is wrong with the text of an included file, and where. -/
def contentFault? (target content : String) : Option (Nat × Nat × String) :=
  if Include.isYamlTarget target then
    match Yaml.read (Include.valuesText content) with
    | .ok _ => none
    | .error error =>
        let (line, column) := error.position?.getD (1, 1)
        some (line, column, error.summary)
  else if Include.isJsonTarget target then
    match Json.read content with
    | .ok _ => none
    | .error error => some (max error.place.line 1, max error.place.column 1, error.message)
  else none

/-- What is wrong with a reference of a document. -/
def includeFinding? (files : FileSystem) (document : Document) (reference : Include) :
    Option Finding :=
  match files (Include.pathOf document.directory reference.target) with
  | .error failure =>
      some (document.findingAt { line := reference.line, column := reference.column } .error
        ("Can not resolve include '" ++ reference.target ++ "': " ++ failure.message))
  | .ok content =>
      (contentFault? reference.target content).map fun (line, column, message) =>
        { path := reference.target, line, column, message, isWarning := false }

/-- The rule that looks at the references of a document. -/
def includes : Rule :=
  { id := "includes"
    description := "Ensures included documents exist and are well-formed"
    severity := .error
    check := fun files document => document.includes.filterMap (includeFinding? files document) }

end RamlCheck.Rule
