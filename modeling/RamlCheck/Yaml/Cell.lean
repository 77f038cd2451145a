/-!
# Characters with their places

YAML depends on where a character stands, so a text is first turned into a list
of *cells*, each a character with its mark.  A line break is one cell however it
is spelt.  What counts as a break differs between readers, and so does the unit in
which they measure how far a text has been read; both are parameters.
-/

namespace RamlCheck.Yaml

/-- A place in a text: how much of the text comes before it, and its line and
column, all counted from zero. -/
structure Mark where
  index : Nat
  line : Nat
  column : Nat
  deriving DecidableEq, Repr, Inhabited

/-- The start of a text. -/
def Mark.start : Mark :=
  { index := 0, line := 0, column := 0 }

/-- The place behind a character of some width that is no break. -/
def Mark.next (mark : Mark) (width : Nat) : Mark :=
  { mark with index := mark.index + width, column := mark.column + 1 }

/-- The place behind a break of some width. -/
def Mark.nextLine (mark : Mark) (width : Nat) : Mark :=
  { index := mark.index + width, line := mark.line + 1, column := 0 }

/-- A character and its mark.  The character of a break is what the break means:
a line feed, unless it is one of the two separators of Unicode. -/
structure Cell where
  char : Char
  mark : Mark
  isBreak : Bool
  deriving DecidableEq, Repr, Inhabited

/-- The breaks of YAML 1.1. -/
def isBreak11 (char : Char) : Bool :=
  char = '\n' || char = '\r' || char = '\u0085' || char = '\u2028' || char = '\u2029'

/-- The breaks of YAML 1.2. -/
def isBreak12 (char : Char) : Bool :=
  char = '\n' || char = '\r'

/-- What a break means. -/
def breakMeaning (char : Char) : Char :=
  if char = '\u2028' ∨ char = '\u2029' then char else '\n'

/-- A text with its places. -/
structure Marked where
  cells : List Cell
  /-- The place behind the last character. -/
  finish : Mark
  deriving DecidableEq, Repr

/-- A text with a cell in front. -/
def Marked.cons (cell : Cell) (text : Marked) : Marked :=
  { text with cells := cell :: text.cells }

/-- The cells of a text from some place on.  `afterReturn` says that a carriage
return came before: a line feed then belongs to the same break. -/
def markedFrom (breaks : Char → Bool) (width : Char → Nat) :
    (afterReturn : Bool) → Mark → List Char → Marked
  | _, mark, [] => { cells := [], finish := mark }
  | afterReturn, mark, char :: rest =>
      if afterReturn && char = '\n' then
        markedFrom breaks width false { mark with index := mark.index + width char } rest
      else if breaks char then
        (markedFrom breaks width (char = '\r') (mark.nextLine (width char)) rest).cons
          { char := breakMeaning char, mark, isBreak := true }
      else
        (markedFrom breaks width false (mark.next (width char)) rest).cons
          { char, mark, isBreak := false }

/-- The cells of a text. -/
def marked (breaks : Char → Bool) (width : Char → Nat) (text : String) : Marked :=
  markedFrom breaks width false .start text.toList

/-- The mark of the first of some cells, or of the end behind them. -/
def markOf (finish : Mark) (cells : List Cell) : Mark :=
  match cells with
  | [] => finish
  | cell :: _ => cell.mark

end RamlCheck.Yaml
