import RamlCheck.Document.Resource

/-!
# Rules

A rule looks for one kind of problem in a document that has been entered.  It
never fails: where it has nothing to say, it has no findings.

Three rules look at nothing but the root.  An API description has a title; a
fragment may leave it out, but a title that is there is not empty.  The base
address of an API may refer to its version, and then the document has to declare
one.  Which properties the root may have depends on the version and on the kind
of fragment; most fragments describe a single thing of their own kind and are not
looked at.
-/

namespace RamlCheck

/-- A rule: what it is called and what it finds. -/
structure Rule where
  id : String
  description : String
  /-- How much its findings weigh unless they say otherwise. -/
  severity : Severity
  check : FileSystem → Document → List Finding

namespace Rule

/-! ## The title -/

/-- What is wrong with the title of a document. -/
def titleFindings (document : Document) : List Finding :=
  match Outline.entryOf? "title" document.root with
  | none =>
      if document.header.fragment.isNone then
        [document.findingAt .start .error "Missing required property 'title'"]
      else []
  | some (key, value) =>
      if value.isEmptyValue then
        [document.findingAt key.place .error "Property 'title' must not be empty"]
      else []

/-- The rule that asks for a title. -/
def title : Rule :=
  { id := "title-required"
    description := "Ensures the API definition declares a title"
    severity := .error
    check := fun _ document => titleFindings document }

/-! ## The version in the base address -/

/-- The parameter that stands for the version. -/
def versionParameter : List Char :=
  "\x7bversion\x7d".toList

/-- Whether a text refers to the version. -/
def mentionsVersion : List Char → Bool
  | [] => false
  | char :: rest =>
      (char :: rest).take versionParameter.length = versionParameter || mentionsVersion rest

/-- A base address that refers to a version that is not declared. -/
def baseUriFindings (document : Document) : List Finding :=
  match (Outline.entryOf? "baseUri" document.root).bind fun entry => entry.2.label? with
  | none => []
  | some address =>
      if mentionsVersion address.text.toList && (Outline.entryOf? "version" document.root).isNone
      then
        [document.findingAt address.place .error
          "'baseUri' uses the \x7bversion\x7d parameter but no 'version' is declared"]
      else []

/-- The rule that asks for the version that the base address refers to. -/
def baseUri : Rule :=
  { id := "base-uri-version"
    description := "Ensures a \x7bversion\x7d placeholder in baseUri has a declared version"
    severity := .error
    check := fun _ document => baseUriFindings document }

/-! ## The properties -/

/-- The properties of an API description in version 0.8. -/
def apiKeys08 : List String :=
  ["title", "version", "baseUri", "baseUriParameters", "uriParameters", "protocols",
   "mediaType", "documentation", "schemas", "traits", "resourceTypes", "securitySchemes",
   "securedBy"]

/-- The properties of an API description in version 1.0. -/
def apiKeys10 : List String :=
  ["title", "description", "version", "baseUri", "baseUriParameters", "protocols",
   "mediaType", "documentation", "schemas", "types", "traits", "resourceTypes",
   "annotationTypes", "securitySchemes", "securedBy", "uses"]

/-- The properties that overlays and extensions have besides. -/
def extensionKeys : List String :=
  ["extends", "usage"]

/-- The properties of a library. -/
def libraryKeys : List String :=
  ["usage", "uses", "types", "schemas", "traits", "resourceTypes", "annotationTypes",
   "securitySchemes"]

/-- Whether a key may stand at the root of an API description of version 1.0 with
some properties. -/
def isApiKey (properties : List String) (key : String) : Bool :=
  Key.isResource key || Key.isAnnotation key || properties.contains key

/-- Whether a key may stand at the root of a document with some header.  Documents
that are not looked at may have any. -/
def isRootKey (header : Header) (key : String) : Bool :=
  Key.isMerge key ||
    match header.version, header.fragment with
    | .v08, _ => Key.isResource key || apiKeys08.contains key
    | .v10, none => isApiKey apiKeys10 key
    | .v10, some fragment =>
        if fragment.isApi then isApiKey (apiKeys10 ++ extensionKeys) key
        else if fragment = .library then Key.isAnnotation key || libraryKeys.contains key
        else true

/-- The unknown properties at the root of a document. -/
def rootKeyFindings (document : Document) : List Finding :=
  (document.root.filter fun entry => !isRootKey document.header entry.1.text).map fun entry =>
    document.findingAt entry.1.place .warning
      ("Unknown property '" ++ entry.1.text ++ "' at the document root")

/-- The rule that warns about unknown properties at the root. -/
def rootKeys : Rule :=
  { id := "known-root-keys"
    description := "Warns about unknown properties at the document root"
    severity := .warning
    check := fun _ document => rootKeyFindings document }

end Rule

end RamlCheck
