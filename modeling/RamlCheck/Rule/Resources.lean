import RamlCheck.Rule.Basic

/-!
# Resources and methods are well formed

A resource or a method is a mapping, or is left empty, or comes from elsewhere.
The keys of a resource are methods, further resources and properties; those of a
method are properties.
-/

namespace RamlCheck.Rule

/-- The properties of a resource. -/
def resourceKeys : List String :=
  ["displayName", "description", "type", "is", "securedBy", "uriParameters",
   "baseUriParameters"]

/-- The properties of a method. -/
def methodKeys : List String :=
  ["displayName", "description", "queryParameters", "queryString", "headers", "body",
   "responses", "is", "securedBy", "protocols", "baseUriParameters"]

/-- Whether a node may be declared as a resource or a method. -/
def mayDeclare (node : Outline) : Bool :=
  node.isMapping || node.isEmptyValue || node.isReference

/-- A declaration that is no mapping. -/
def notMapping (document : Document) (kind : String) (key : Label) : Finding :=
  document.findingAt key.place .error (kind ++ " '" ++ key.text ++ "' must be a mapping")

/-- Whether a key that is no method may stand in a resource. -/
def isResourceKey (key : String) : Bool :=
  Key.isResource key || Key.isAnnotation key || Key.isMerge key || resourceKeys.contains key

/-- Whether a key may stand in a method. -/
def isMethodKey (key : String) : Bool :=
  Key.isAnnotation key || Key.isMerge key || methodKeys.contains key

/-- What is wrong with an entry of a resource. -/
def resourceEntryFindings (document : Document) (resource : Label) (entry : Label × Outline) :
    List Finding :=
  let (key, node) := entry
  if Key.isMethod key.text then
    if mayDeclare node then [] else [notMapping document "Method" key]
  else if isResourceKey key.text then []
  else
    [document.findingAt key.place .warning
      ("Unknown property '" ++ key.text ++ "' in resource '" ++ resource.text ++ "'")]

/-- What is wrong with a resource and its entries. -/
def resourceFindings (document : Document) (resource : Resource) : List Finding :=
  if mayDeclare resource.node then
    (resource.node.entries?.getD []).flatMap (resourceEntryFindings document resource.key)
  else [notMapping document "Resource" resource.key]

/-- The unknown properties of a method. -/
def methodFindings (document : Document) (method : Method) : List Finding :=
  ((method.node.entries?.getD []).filter fun entry => !isMethodKey entry.1.text).map fun entry =>
    document.findingAt entry.1.place .warning
      ("Unknown property '" ++ entry.1.text ++ "' in method '" ++ method.key.text ++ " "
        ++ method.resource.text ++ "'")

/-- The rule that looks at resources and their methods. -/
def resources : Rule :=
  { id := "resource-structure"
    description := "Validates resource and method declarations"
    severity := .warning
    check := fun _ document =>
      document.resources.flatMap (resourceFindings document)
        ++ document.methods.flatMap (methodFindings document) }

end RamlCheck.Rule
