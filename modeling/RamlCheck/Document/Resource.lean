import RamlCheck.Document.Entry

/-!
# Resources and methods

The keys of a mapping in a RAML document say by their form what they declare.

Resources are the entries whose keys are paths, at the root and inside other
resources.  They are listed in document order, each one in front of those inside
it.
-/

/-! ## Kinds of keys -/

namespace RamlCheck.Key

/-- The methods that a resource may declare. -/
def methods : List String :=
  ["get", "post", "put", "delete", "patch", "head", "options", "trace", "connect"]

/-- Whether a key declares a resource. -/
def isResource (key : String) : Bool :=
  key.toList.head? = some '/'

/-- Whether a key declares a method. -/
def isMethod (key : String) : Bool :=
  methods.contains key

/-- Whether a key is an annotation, a name in parentheses. -/
def isAnnotation (key : String) : Bool :=
  key.toList.head? = some '(' && key.toList.getLast? = some ')'

/-- Whether a key merges another mapping into this one. -/
def isMerge (key : String) : Bool :=
  key = "<<"

theorem not_isMethod_of_isResource {key : String} (hresource : isResource key = true) :
    isMethod key = false := by
  cases hmethod : isMethod key with
  | false => rfl
  | true =>
      simp only [isMethod, methods, List.contains_eq_mem, List.mem_cons, List.not_mem_nil,
        or_false, decide_eq_true_eq] at hmethod
      rcases hmethod with rfl | rfl | rfl | rfl | rfl | rfl | rfl | rfl | rfl <;>
        simp [isResource] at hresource

end RamlCheck.Key

namespace RamlCheck

/-! ## Nodes -/

namespace Outline

/-- The entry with some key. -/
def entryOf? (name : String) (entries : List (Label × Outline)) : Option (Label × Outline) :=
  entries.find? fun entry => entry.1.text = name

/-- Whether a node stands for content from elsewhere: a reference or an alias. -/
def isReference (node : Outline) : Bool :=
  node.label?.any fun label =>
    (Include.target? label.text).isSome || Include.isAliasMark label.text

/-- Whether a node is an empty value. -/
def isEmptyValue (node : Outline) : Bool :=
  node.label?.any fun label => label.text = "" || label.text = "~" || label.text = "null"

/-- Whether a node is a mapping. -/
def isMapping (node : Outline) : Bool :=
  node.entries?.isSome

end Outline

/-! ## Entries that declare something -/

/-- An entry of an outline that declares a resource. -/
structure Resource where
  key : Label
  node : Outline

/-- An entry of a resource that declares a method. -/
structure Method where
  resource : Label
  key : Label
  node : Outline

namespace Resource

mutual

/-- The resources inside a node, in document order. -/
def within : Outline → List Resource
  | .mapping entries => ofEntries entries
  | .scalar _ => []
  | .sequence _ => []

/-- The resources among some entries and inside them. -/
def ofEntries : List (Label × Outline) → List Resource
  | [] => []
  | (key, node) :: rest =>
      if Key.isResource key.text then { key, node } :: within node ++ ofEntries rest
      else ofEntries rest

end

/-- The methods that a resource declares itself. -/
def methods (resource : Resource) : List Method :=
  ((resource.node.entries?.getD []).filter fun entry => Key.isMethod entry.1.text).map
    fun entry => { resource := resource.key, key := entry.1, node := entry.2 }

@[simp] theorem ofEntries_nil : ofEntries [] = [] := by
  simp [ofEntries]

theorem ofEntries_cons (key : Label) (node : Outline) (rest : List (Label × Outline)) :
    ofEntries ((key, node) :: rest) =
      if Key.isResource key.text then { key, node } :: within node ++ ofEntries rest
      else ofEntries rest := by
  simp [ofEntries]

end Resource

namespace Document

/-- The resources of a document. -/
def resources (document : Document) : List Resource :=
  Resource.ofEntries document.root

/-- The methods of a document, resource by resource. -/
def methods (document : Document) : List Method :=
  document.resources.flatMap Resource.methods

/-- A finding at some place of a document. -/
def findingAt (document : Document) (place : Place) (severity : Severity) (message : String) :
    Finding :=
  { path := document.name
    line := place.line
    column := place.column
    message
    isWarning := severity = .warning }

end Document

end RamlCheck
