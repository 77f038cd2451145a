import RamlCheck.Include.Line
import RamlCheck.Text.Basic

/-!
# Texts of a document

A document is read twice, and neither reader knows the tag `!include`; the reader
of positions knows no node properties at all.  So each reader gets a text of its
own, made from the same pieces: `valuesText` and `positionsText`.  `includesOf`
lists the references with the positions of their tags.

What a reference becomes is an ordinary scalar that starts with `!include `;
`target?` reads the target back from it.
-/

namespace RamlCheck

/-- A reference to another file: the target as written, and the line and column
of its tag, counted from one. -/
structure Include where
  target : String
  line : Nat
  column : Nat
  deriving DecidableEq, Repr

namespace Include

/-- One line as pieces, with the line feeds and carriage returns that end it. -/
structure ScannedLine where
  pieces : List Piece
  ending : List Char
  deriving DecidableEq, Repr

/-- The lines of a text as pieces. -/
def scanLines : State → List (List Char) → List ScannedLine
  | _, [] => []
  | state, line :: rest =>
      let (content, ending) := Text.splitEnding line
      let scan := scanLine state content
      { pieces := scan.pieces, ending } :: scanLines scan.after rest

/-- A text as lines of pieces. -/
def scan (text : String) : List ScannedLine :=
  scanLines .start (Text.cutLines text.toList)

/-- Lines of pieces as text, each piece shown some way. -/
def render (shown : Piece → List Char) (lines : List ScannedLine) : String :=
  String.ofList (lines.flatMap fun line => line.pieces.flatMap shown ++ line.ending)

/-- The text that is read for values. -/
def valuesText (text : String) : String :=
  render Piece.forValues (scan text)

/-- The text that is read for positions. -/
def positionsText (text : String) : String :=
  render Piece.forPositions (scan text)

/-- The references of a line, from some column on. -/
def includesOfLine (line column : Nat) : List Piece → List Include
  | [] => []
  | piece :: rest =>
      let others := includesOfLine line (column + piece.source.length) rest
      match piece with
      | .reference _ target => { target := String.ofList target, line, column } :: others
      | _ => others

/-- The references of lines, from some line on. -/
def includesOfLines (line : Nat) : List ScannedLine → List Include
  | [] => []
  | scanned :: rest => includesOfLine line 1 scanned.pieces ++ includesOfLines (line + 1) rest

/-- The references of a text, in the order in which they stand. -/
def includesOf (text : String) : List Include :=
  includesOfLines 1 (scan text)

/-- The target of a scalar that stands for a reference. -/
def target? (scalar : String) : Option String :=
  let chars := scalar.toList
  if chars.take includeMark.length = includeMark then
    some (String.ofList (chars.drop includeMark.length))
  else none

/-- Whether a scalar stands for an alias in the text that is read for positions. -/
def isAliasMark (scalar : String) : Bool :=
  match scalar.toList with
  | '*' :: _ :: _ => true
  | _ => false

/-! ## What a target holds -/

/-- A letter of ASCII in lower case; any other character as it is. -/
def lowerLetter (char : Char) : Char :=
  if 'A' ≤ char ∧ char ≤ 'Z' then Char.ofNat (char.toNat + 32) else char

/-- Whether the extension of a target is one of some, the case of ASCII letters
aside. -/
def hasExtension (target : String) (extensions : List String) : Bool :=
  match Path.extension? target with
  | none => false
  | some extension =>
      extensions.any fun known => known.toList = extension.toList.map lowerLetter

/-- Whether a target is read as YAML. -/
def isYamlTarget (target : String) : Bool :=
  hasExtension target ["raml", "yaml", "yml"]

/-- Whether a target is read as JSON. -/
def isJsonTarget (target : String) : Bool :=
  hasExtension target ["json"]

/-- The file that a target names, from the directory of the document. -/
def pathOf (directory target : String) : String :=
  Path.join directory target

end Include

end RamlCheck
