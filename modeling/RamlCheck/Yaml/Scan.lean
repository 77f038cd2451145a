import RamlCheck.Yaml.Fault

/-!
# Steps over a text

A `Scan` takes cells from the front of a text, or fails at the place it has
reached.  What is looked at may lie behind the end: there every test but
`atEnd` and those that admit the end fails.
-/

namespace RamlCheck.Yaml

/-- A step over a text. -/
abbrev Scan (Value : Type) := StateT Marked (Except Fault) Value

namespace Marked

/-- The place reached. -/
def here (text : Marked) : Mark :=
  markOf text.finish text.cells

/-- The character some places ahead; the character of a break is what it means. -/
def ahead? (text : Marked) (distance : Nat) : Option Char :=
  (text.cells[distance]?).map (·.char)

/-- Whether nothing stands some places ahead. -/
def isEndAt (text : Marked) (distance : Nat) : Bool :=
  text.cells[distance]?.isNone

/-- Whether a break stands some places ahead. -/
def isBreakAt (text : Marked) (distance : Nat) : Bool :=
  (text.cells[distance]?).any (·.isBreak)

/-- Whether a space or a tab stands some places ahead. -/
def isGapAt (text : Marked) (distance : Nat) : Bool :=
  text.ahead? distance = some ' ' || text.ahead? distance = some '\t'

/-- Whether a break or nothing stands some places ahead. -/
def isBreakOrEndAt (text : Marked) (distance : Nat) : Bool :=
  text.isBreakAt distance || text.isEndAt distance

/-- Whether a space, a tab, a break or nothing stands some places ahead. -/
def isBlankOrEndAt (text : Marked) (distance : Nat) : Bool :=
  text.isGapAt distance || text.isBreakOrEndAt distance

/-- Whether the next characters are some given ones. -/
def startsWith (text : Marked) (chars : List Char) : Bool :=
  (text.cells.take chars.length).map (·.char) = chars

/-- Whether a line starts here with one of the indicators of documents, set off
from what follows. -/
def atDocumentIndicator (text : Marked) : Bool :=
  text.here.column = 0 && (text.startsWith ['-', '-', '-'] || text.startsWith ['.', '.', '.'])
    && text.isBlankOrEndAt 3

end Marked

namespace Scan

/-- The place reached. -/
def here : Scan Mark := do
  return (← get).here

/-- The next character. -/
def peek : Scan (Option Char) := do
  return (← get).ahead? 0

/-- Whether what is ahead passes a test. -/
def looksAt (test : Marked → Bool) : Scan Bool := do
  return test (← get)

/-- Takes some cells. -/
def skip (count : Nat) : Scan Unit := do
  modify fun text => { text with cells := text.cells.drop count }

/-- Takes all cells in front that pass a test. -/
def takeWhile (test : Cell → Bool) : Scan (List Char) := do
  let text ← get
  let taken := text.cells.takeWhile test
  set { text with cells := text.cells.drop taken.length }
  return taken.map (·.char)

/-- Takes all spaces and tabs in front. -/
def skipGap : Scan Unit := do
  discard (takeWhile fun cell => cell.char = ' ' || cell.char = '\t')

/-- Takes everything in front of the next break. -/
def skipLine : Scan Unit := do
  discard (takeWhile fun cell => !cell.isBreak)

/-- Takes a comment, if one is next. -/
def skipComment : Scan Unit := do
  if (← peek) = some '#' then skipLine

/-- Takes a break, if one is next. -/
def skipBreak : Scan Unit := do
  if (← looksAt (·.isBreakAt 0)) then skip 1

/-- Fails at the place reached. -/
def fail {Value : Type} (activity : Option Activity) (problem : Problem) : Scan Value := do
  throw (Fault.of problem (← here) activity)

/-- As many steps as there can be in a loop that takes a cell each time. -/
def fuel : Scan Nat := do
  return (← get).cells.length + 1

end Scan

end RamlCheck.Yaml
