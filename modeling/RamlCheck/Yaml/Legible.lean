import RamlCheck.Yaml.Scan

/-!
# Characters that no text may hold

Some characters may not stand in a text at all.  A text is looked through for them
piece by piece, each piece when a token first reaches into it; so what is wrong in
front of that piece shows before they do.
-/

namespace RamlCheck.Yaml

/-- Whether a character may stand in a text at all. -/
def isAllowed (char : Char) : Bool :=
  char = '\t' || char = '\n' || char = '\r' || (' ' ≤ char && char ≤ '~') || char = '\u0085'
    || ('\u00a0' ≤ char && char ≤ '\ufffd') || 0x10000 ≤ char.toNat

/-- How many bytes a piece of a text takes at most. -/
def pieceSize : Nat := 16384

/-- A character that may not stand in a text: how many bytes come before it, and
how many before the piece in which it stands. -/
structure Illegible where
  offset : Nat
  piece : Nat
  deriving DecidableEq, Repr

/-- The first character that may not stand in a text, behind some bytes of it and
the start of a piece. -/
def illegibleFrom? (piece offset : Nat) : List Char → Option Illegible
  | [] => none
  | char :: rest =>
      let next := offset + char.utf8Size
      let piece := if piece + pieceSize < next then offset else piece
      if isAllowed char then illegibleFrom? piece next rest else some { offset, piece }

/-- The first character that may not stand in a text. -/
def illegible? (text : String) : Option Illegible :=
  illegibleFrom? 0 0 text.toList

/-- What is wrong with a text that holds such a character. -/
def Illegible.fault (found : Illegible) : Fault :=
  { problem := .controlCharacter, mark := .start, activity := none, offset := found.offset }

/-- The cells of a text up to some byte. -/
def Marked.upTo (text : Marked) (bytes : Nat) : Marked :=
  let legible := text.cells.takeWhile fun cell => cell.mark.index < bytes
  { cells := legible, finish := markOf text.finish (text.cells.drop legible.length) }

end RamlCheck.Yaml
