import RamlCheck.Document.Entry
import RamlCheck.Document.Payload

/-!
# What a document refers to

A document names other files in two ways: by its references, and by strings that
spell a reference out.  `Document.references` lists the paths of all of them;
nothing else is ever asked of the files when a document is validated.
-/

namespace RamlCheck

namespace Yaml.Value

mutual

/-- The targets of the strings in a value that spell a reference out.  Keys are
no references. -/
def targets : Value → List String
  | .string text => (Include.target? text).toList
  | .sequence items => targetsOfItems items
  | .mapping entries => targetsOfEntries entries
  | .tagged _ value => targets value
  | .null => []
  | .bool _ => []
  | .number _ => []

/-- The targets in the items of a sequence. -/
def targetsOfItems : List Value → List String
  | [] => []
  | item :: rest => targets item ++ targetsOfItems rest

/-- The targets in the values of a mapping. -/
def targetsOfEntries : List (Value × Value) → List String
  | [] => []
  | (_, value) :: rest => targets value ++ targetsOfEntries rest

end

end Yaml.Value

namespace Document

/-- All targets of a document, those of its references first. -/
def targets (document : Document) : List String :=
  document.includes.map Include.target ++ document.value.targets

/-- The paths that the targets of a document stand for. -/
def references (document : Document) : List String :=
  document.targets.map (Include.pathOf document.directory)

end Document

end RamlCheck
