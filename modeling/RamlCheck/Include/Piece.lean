import RamlCheck.File.Basic

/-!
# Pieces of a line

A line of a document is read as a list of pieces: characters that are only
copied, references to other files, and the node properties of YAML.  Each piece
knows the text it was read from (`Piece.source`), so that the sources of a line's
pieces make up the line.
-/

namespace RamlCheck.Include

/-- A piece of a line.  The texts of an anchor, an alias and a tag hold their
indicator; a reference is the tag `!include`, the blanks behind it and a target. -/
inductive Piece
  | copied (char : Char)
  | reference (gap target : List Char)
  | anchor (text : List Char)
  | aliased (text : List Char)
  | tag (text : List Char)
  deriving DecidableEq, Repr

/-- The tag that marks a reference. -/
def includeTag : List Char := "!include".toList

/-- What a scalar that stands for a reference starts with. -/
def includeMark : List Char := "!include ".toList

/-- The text a piece was read from. -/
def Piece.source : Piece → List Char
  | .copied char => [char]
  | .reference gap target => includeTag ++ gap ++ target
  | .anchor text => text
  | .aliased text => text
  | .tag text => text

/-- A text as a YAML scalar in single quotes: each quote inside is doubled. -/
def singleQuoted (text : List Char) : List Char :=
  ['\''] ++ text.flatMap (fun char => if char = '\'' then ['\'', '\''] else [char]) ++ ['\'']

/-- What stands for a piece in the text that is read for values: a reference
becomes a quoted scalar that names its target. -/
def Piece.forValues : Piece → List Char
  | .reference _ target => singleQuoted (includeMark ++ target)
  | piece => piece.source

/-- What stands for a piece in the text that is read for positions: aliases
become quoted scalars too, and anchors and tags become blanks. -/
def Piece.forPositions : Piece → List Char
  | .copied char => [char]
  | .reference _ target => singleQuoted (includeMark ++ target)
  | .aliased text => singleQuoted text
  | .anchor text => List.replicate text.length ' '
  | .tag text => List.replicate text.length ' '

@[simp] theorem length_forPositions_anchor (text : List Char) :
    (Piece.anchor text).forPositions.length = (Piece.anchor text).source.length := by
  simp [Piece.forPositions, Piece.source]

@[simp] theorem length_forPositions_tag (text : List Char) :
    (Piece.tag text).forPositions.length = (Piece.tag text).source.length := by
  simp [Piece.forPositions, Piece.source]

end RamlCheck.Include
