import RamlCheck.Document.Payload
import RamlCheck.Rule.Registry
import RamlCheck.Run.Basic

/-!
# Validating a document

A document is entered, checked by the rules of a registry and turned into its
payload.  The findings come in the order of the document: its own first, then
those of included files by path, and by place within a file.  Findings of one
place keep the order of the rules.
-/

namespace RamlCheck

namespace Finding

/-- Whether a finding is not about the document of some name itself. -/
def isElsewhere (name : String) (finding : Finding) : Bool :=
  finding.path ≠ name

/-- Whether a finding of a document may stand in front of another one. -/
def le (name : String) (first second : Finding) : Bool :=
  if first.isElsewhere name ≠ second.isElsewhere name then !first.isElsewhere name
  else if first.path ≠ second.path then first.path < second.path
  else if first.line ≠ second.line then first.line < second.line
  else first.column ≤ second.column

end Finding

namespace Document

/-- What the rules of a registry find in a document, rule by rule. -/
def findings (document : Document) (registry : Registry) (files : FileSystem) : List Finding :=
  registry.rules.flatMap fun rule => rule.check files document

/-- What the rules of a registry find in a document, in the order of the
document. -/
def sortedFindings (document : Document) (registry : Registry) (files : FileSystem) :
    List Finding :=
  (document.findings registry files).mergeSort (Finding.le document.name)

/-- The payload of a document. -/
def payload (document : Document) (files : FileSystem) : Json :=
  Payload.ofDocument files document.directory document.value

/-- What a registry says about a document. -/
def verdict (document : Document) (registry : Registry) (files : FileSystem) : Verdict :=
  match document.sortedFindings registry files with
  | [] => .ok (document.payload files)
  | findings => .error (.structured findings (some (document.payload files)))

end Document

namespace Source

/-- The name of a document, the directory it lies in and its text. -/
def open? (files : FileSystem) : Source → Except Failure (String × String × String)
  | .file path =>
      match files path with
      | .error failure =>
          .error (.generic ("Cannot read '" ++ path ++ "': " ++ failure.message))
      | .ok text => .ok ((Path.fileName? path).getD path, Path.directory path, text)
  | .content name text => .ok (name, "", text)

/-- The document of a source. -/
def load (files : FileSystem) (source : Source) : Except Failure Document := do
  let (name, directory, text) ← source.open? files
  match Document.load name directory text with
  | .ok document => return document
  | .error error => throw (error.failure name)

end Source

/-- Validates documents with the rules of a registry. -/
def validator (registry : Registry) (files : FileSystem) : Validator := fun source =>
  match source.load files with
  | .error failure => .error failure
  | .ok document => document.verdict registry files

end RamlCheck
