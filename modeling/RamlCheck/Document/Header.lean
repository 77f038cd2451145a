import RamlCheck.Text.Basic

/-!
# The header of a document

The first line of a RAML document names the version of the language and, for
version 1.0, may name the kind of fragment the document is.  `Header.parse?`
reads it; a line that is not exactly of this form has no header.
-/

namespace RamlCheck

/-- A version of the language. -/
inductive Version
  | v08
  | v10
  deriving DecidableEq, Repr

/-- The text of a version. -/
def Version.text : Version → String
  | .v08 => "0.8"
  | .v10 => "1.0"

/-- A kind of fragment: a document that is not an API description by itself. -/
inductive Fragment
  | documentationItem
  | dataType
  | namedExample
  | resourceType
  | trait
  | annotationTypeDeclaration
  | library
  | overlay
  | extension
  | securityScheme
  deriving DecidableEq, Repr

namespace Fragment

/-- All kinds of fragments. -/
def all : List Fragment :=
  [.documentationItem, .dataType, .namedExample, .resourceType, .trait,
   .annotationTypeDeclaration, .library, .overlay, .extension, .securityScheme]

/-- The name that a header uses for a kind of fragment. -/
def name : Fragment → String
  | .documentationItem => "DocumentationItem"
  | .dataType => "DataType"
  | .namedExample => "NamedExample"
  | .resourceType => "ResourceType"
  | .trait => "Trait"
  | .annotationTypeDeclaration => "AnnotationTypeDeclaration"
  | .library => "Library"
  | .overlay => "Overlay"
  | .extension => "Extension"
  | .securityScheme => "SecurityScheme"

/-- The kind of fragment that a name stands for. -/
def ofName? (name : String) : Option Fragment :=
  all.find? fun fragment => fragment.name = name

/-- Whether a fragment describes an API, as overlays and extensions do. -/
def isApi (fragment : Fragment) : Bool :=
  fragment = .overlay || fragment = .extension

theorem ofName?_name (fragment : Fragment) : ofName? fragment.name = some fragment := by
  cases fragment <;> decide

end Fragment

/-- What the first line of a document says. -/
structure Header where
  version : Version
  fragment : Option Fragment
  deriving DecidableEq, Repr

namespace Header

/-- A space or a tab. -/
def isGap (char : Char) : Bool :=
  char = ' ' || char = '\t'

/-- What follows the blanks in front of a text, of which there is at least one. -/
def dropGap? (chars : List Char) : Option (List Char) :=
  match chars with
  | [] => none
  | first :: _ => if isGap first then some (chars.dropWhile isGap) else none

/-- What follows a text that starts with some characters. -/
def dropStart? (start chars : List Char) : Option (List Char) :=
  if chars.take start.length = start then some (chars.drop start.length) else none

/-- The version in front of a text, and what follows it. -/
def version? (chars : List Char) : Option (Version × List Char) :=
  match dropStart? "0.8".toList chars with
  | some rest => some (.v08, rest)
  | none => (dropStart? "1.0".toList chars).map fun rest => (.v10, rest)

/-- The header that what follows a version makes.  A name follows after blanks
and runs to the end without any; version 0.8 takes none. -/
def withName? (version : Version) (rest : List Char) : Option Header :=
  match rest with
  | [] => some { version, fragment := none }
  | _ :: _ => do
      let name ← dropGap? rest
      if name.isEmpty || name.any Text.isBlank then none
      else if version = .v08 then none
      else
        let fragment ← Fragment.ofName? (String.ofList name)
        some { version, fragment := some fragment }

/-- The header that a line makes.  Blanks at its end do not count. -/
def parse? (line : List Char) : Option Header := do
  let rest ← dropStart? "#%RAML".toList (Text.trimEnd line)
  let (version, rest) ← version? (← dropGap? rest)
  withName? version rest

/-- The text of a header line. -/
def text (header : Header) : String :=
  "#%RAML " ++ header.version.text ++
    match header.fragment with
    | none => ""
    | some fragment => " " ++ fragment.name

end Header

end RamlCheck
