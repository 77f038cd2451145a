import RamlCheck.Include.Piece
import RamlCheck.Text.Basic

/-!
# Reading a line into pieces

Only what starts a YAML node can be a reference or a node property.  A line is
therefore walked with the knowledge whether a node may start at this place, how
many flow collections are open, and what an earlier line left open: a quoted
scalar or a block scalar.

## Strategy

* Quoted scalars, comments and the lines of block scalars are copied whole.
* At the start of a node, `&`, `*` and `!` begin a piece that runs up to a blank
  or a flow indicator.
* A `:`, and a `,` inside a flow collection, let the next node start.

`flatten_source_scanBody` says that no character is lost: the sources of the
pieces make up the line.
-/

namespace RamlCheck.Include

/-- What a line leaves open for the next one. -/
inductive Carry
  | nothing
  /-- A scalar in these quotes. -/
  | quoted (quote : Char)
  /-- A block scalar whose header stands on a line with this many leading spaces. -/
  | block (indent : Nat)
  deriving DecidableEq, Repr

/-- What is known between two lines: what is left open, and the number of open
flow collections. -/
structure State where
  carry : Carry
  depth : Nat
  deriving DecidableEq, Repr

/-- The state before the first line. -/
def State.start : State :=
  { carry := .nothing, depth := 0 }

/-- The pieces of a line, and what it leaves open. -/
structure Scan where
  pieces : List Piece
  after : State
  deriving DecidableEq, Repr

/-- A scan with more pieces in front. -/
def Scan.prepend (pieces : List Piece) (scan : Scan) : Scan :=
  { scan with pieces := pieces ++ scan.pieces }

/-- A scan that copies what is left of a line. -/
def Scan.copyRest (rest : List Char) (after : State) : Scan :=
  { pieces := rest.map .copied, after }

/-! ## Character classes -/

/-- A space or a tab. -/
def isGap (char : Char) : Bool :=
  char = ' ' || char = '\t'

/-- Whether a piece that started earlier goes on with a character. -/
def inWord (char : Char) : Bool :=
  !(isGap char || char = ',' || char = '[' || char = ']' || char = '\x7b' || char = '\x7d')

/-- Whether a target goes on with a character. -/
def inTarget (char : Char) : Bool :=
  !(isGap char || char = '#' || char = ',' || char = ']' || char = '\x7d')

/-- Whether an indicator with this text behind it is set off: by a space, a tab
or the end of the line. -/
def setsOff : List Char → Bool
  | [] => true
  | char :: _ => isGap char

/-- Whether the text behind `|` or `>` makes it the header of a block scalar:
indicators of chomping and indentation, then nothing but blanks or a comment. -/
def isBlockHeader (rest : List Char) : Bool :=
  let rest := rest.dropWhile fun char => char = '+' || char = '-' || ('0' ≤ char && char ≤ '9')
  let trimmed := Text.trimStart rest
  trimmed.isEmpty || (trimmed.head? = some '#' && decide (trimmed.length < rest.length))

/-! ## Quoted scalars -/

/-- The text up to and with the closing quote, and what follows; nothing if the
line ends first.  In double quotes a backslash takes the next character with it,
in single quotes the first of two quotes does; `taken` says that the character in
front did. -/
def closeQuote (quote : Char) : (taken : Bool) → List Char → Option (List Char × List Char)
  | _, [] => none
  | taken, char :: rest =>
      if !taken && char = quote && !(quote = '\'' && rest.head? = some '\'') then
        some ([char], rest)
      else
        let takes := !taken && ((quote = '"' && char = '\\') || char = quote)
        (closeQuote quote takes rest).map fun closed => (char :: closed.1, closed.2)

theorem append_of_closeQuote {quote : Char} {taken : Bool} {chars inside after : List Char}
    (hclose : closeQuote quote taken chars = some (inside, after)) :
    inside ++ after = chars := by
  induction chars generalizing taken inside after with
  | nil => simp [closeQuote] at hclose
  | cons char rest ih =>
      simp only [closeQuote] at hclose
      split at hclose
      · cases hclose
        rfl
      · obtain ⟨⟨inside', after'⟩, hrest, heq⟩ := Option.map_eq_some_iff.mp hclose
        cases heq
        simp [ih hrest]

/-! ## The walk -/

/-- The piece that `!` begins, and what follows it.  The tag `!include` needs a
gap and a target to be a reference. -/
def tagPiece (chars : List Char) : Piece × List Char :=
  let word := chars.takeWhile inWord
  let after := chars.drop word.length
  let gap := after.takeWhile isGap
  let target := (after.drop gap.length).takeWhile inTarget
  if word = includeTag ∧ gap ≠ [] ∧ target ≠ [] then
    (.reference gap target, after.drop (gap.length + target.length))
  else (.tag word, after)

/-- Whether a node may start behind a character of plain text. -/
def startsNode (depth : Nat) (char : Char) (rest : List Char) : Bool :=
  (char = ':' && setsOff rest) || (char = ',' && decide (0 < depth))

/-- The number of open flow collections behind a character of plain text. -/
def depthAfter (depth : Nat) (char : Char) : Nat :=
  if char = ']' ∨ char = '\x7d' then depth - 1 else depth

/-- Where a walk stands in a line: whether a node may start here, whether a `#`
here would begin a comment, and how many flow collections are open. -/
structure Stance where
  nodeStart : Bool
  afterGap : Bool
  depth : Nat
  deriving DecidableEq, Repr

/-- One step of a walk: the rest of the line is copied and something may stay
open, or some pieces are taken and the walk goes on. -/
inductive Step
  | stop (carry : Carry)
  | take (pieces : List Piece) (stance : Stance) (rest : List Char)
  deriving DecidableEq, Repr

/-- The step at the first character of a node, unless it is plain text there. -/
def nodeStep? (indent : Nat) (stance : Stance) (char : Char) (rest : List Char) : Option Step :=
  let word := (char :: rest).takeWhile inWord
  let after := (char :: rest).drop word.length
  let within : Stance := { stance with nodeStart := false, afterGap := false }
  let before : Stance := { stance with nodeStart := true, afterGap := false }
  match char with
  | '\'' | '"' =>
      match closeQuote char false rest with
      | none => some (.stop (.quoted char))
      | some (inside, after) => some (.take ((char :: inside).map .copied) within after)
  | '-' => if setsOff rest then some (.take [.copied char] before rest) else none
  | '[' | '\x7b' =>
      some (.take [.copied char] { before with depth := stance.depth + 1 } rest)
  | '|' | '>' => if isBlockHeader rest then some (.stop (.block indent)) else none
  | '&' => some (.take [.anchor word] before after)
  | '*' => some (.take [.aliased word] within after)
  | '!' =>
      match tagPiece (char :: rest) with
      | (.reference gap target, after) => some (.take [.reference gap target] within after)
      | (piece, after) => some (.take [piece] before after)
  | _ => none

/-- The step at a character. -/
def step (indent : Nat) (stance : Stance) (char : Char) (rest : List Char) : Step :=
  if isGap char then .take [.copied char] { stance with afterGap := true } rest
  else if char = '#' && stance.afterGap then .stop .nothing
  else
    match if stance.nodeStart then nodeStep? indent stance char rest else none with
    | some taken => taken
    | none =>
        .take [.copied char]
          { nodeStart := startsNode stance.depth char rest
            afterGap := false
            depth := depthAfter stance.depth char }
          rest

/-- The walk over what is left of a line that has `indent` leading spaces.  Each
step takes a character, so the length of the line is fuel enough. -/
def scanBody (indent : Nat) : Nat → Stance → List Char → Scan
  | 0, stance, rest => Scan.copyRest rest { carry := .nothing, depth := stance.depth }
  | _ + 1, stance, [] => Scan.copyRest [] { carry := .nothing, depth := stance.depth }
  | fuel + 1, stance, char :: rest =>
      match step indent stance char rest with
      | .stop carry => Scan.copyRest (char :: rest) { carry, depth := stance.depth }
      | .take pieces stance rest => (scanBody indent fuel stance rest).prepend pieces

/-- The number of spaces a line starts with. -/
def leadingSpaces (line : List Char) : Nat :=
  (line.takeWhile (· = ' ')).length

/-- The pieces of a line, without the characters that end it. -/
def scanLine (state : State) (line : List Char) : Scan :=
  let indent := leadingSpaces line
  let start : Stance := { nodeStart := true, afterGap := true, depth := state.depth }
  match state.carry with
  | .nothing => scanBody indent line.length start line
  | .block header =>
      if Text.isBlankText line || decide (header < indent) then Scan.copyRest line state
      else scanBody indent line.length start line
  | .quoted quote =>
      match closeQuote quote false line with
      | none => Scan.copyRest line state
      | some (inside, after) =>
          (scanBody indent line.length { start with nodeStart := false, afterGap := false }
            after).prepend (inside.map .copied)

/-! ## Nothing is lost -/

/-- The text that a list of pieces was read from. -/
def sourceOf (pieces : List Piece) : List Char :=
  pieces.flatMap Piece.source

@[simp] theorem sourceOf_nil : sourceOf [] = [] := rfl

@[simp] theorem sourceOf_cons (piece : Piece) (rest : List Piece) :
    sourceOf (piece :: rest) = piece.source ++ sourceOf rest := by
  simp [sourceOf]

@[simp] theorem sourceOf_copied (chars : List Char) :
    sourceOf (chars.map Piece.copied) = chars := by
  induction chars with
  | nil => rfl
  | cons char rest ih => simpa [sourceOf, Piece.source] using ih

@[simp] theorem sourceOf_prepend (pieces : List Piece) (scan : Scan) :
    sourceOf (scan.prepend pieces).pieces = sourceOf pieces ++ sourceOf scan.pieces := by
  simp [sourceOf, Scan.prepend]

theorem takeWhile_append_drop_length (test : Char → Bool) (chars : List Char) :
    chars.takeWhile test ++ chars.drop (chars.takeWhile test).length = chars := by
  induction chars with
  | nil => rfl
  | cons char rest ih => cases htest : test char <;> simp [htest, ih]

theorem source_tagPiece (chars : List Char) :
    (tagPiece chars).1.source ++ (tagPiece chars).2 = chars := by
  have hword := takeWhile_append_drop_length inWord chars
  simp only [tagPiece]
  split
  · next hreference =>
    have hgap := takeWhile_append_drop_length isGap
      (chars.drop (chars.takeWhile inWord).length)
    have htarget := takeWhile_append_drop_length inTarget
      ((chars.drop (chars.takeWhile inWord).length).drop
        ((chars.drop (chars.takeWhile inWord).length).takeWhile isGap).length)
    simp only [Piece.source, ← hreference.1, List.append_assoc]
    rw [← List.drop_drop, htarget, hgap, hword]
  · simpa [Piece.source] using hword

theorem sourceOf_of_nodeStep? {indent : Nat} {stance next : Stance} {char : Char}
    {rest after : List Char} {pieces : List Piece}
    (hstep : nodeStep? indent stance char rest = some (.take pieces next after)) :
    sourceOf pieces ++ after = char :: rest := by
  have hword := takeWhile_append_drop_length inWord (char :: rest)
  have htag := source_tagPiece (char :: rest)
  unfold nodeStep? at hstep
  split at hstep
  · split at hstep
    · simp at hstep
    · next hclose =>
      simp only [Option.some.injEq, Step.take.injEq] at hstep
      obtain ⟨rfl, -, rfl⟩ := hstep
      simp [Piece.source, append_of_closeQuote hclose]
  · split at hstep
    · simp at hstep
    · next hclose =>
      simp only [Option.some.injEq, Step.take.injEq] at hstep
      obtain ⟨rfl, -, rfl⟩ := hstep
      simp [Piece.source, append_of_closeQuote hclose]
  · split at hstep <;> simp at hstep
    obtain ⟨rfl, -, rfl⟩ := hstep
    simp [Piece.source]
  · simp at hstep
    obtain ⟨rfl, -, rfl⟩ := hstep
    simp [Piece.source]
  · simp at hstep
    obtain ⟨rfl, -, rfl⟩ := hstep
    simp [Piece.source]
  · split at hstep <;> simp at hstep
  · split at hstep <;> simp at hstep
  · simp only [Option.some.injEq, Step.take.injEq] at hstep
    obtain ⟨rfl, -, rfl⟩ := hstep
    simpa [Piece.source] using hword
  · simp only [Option.some.injEq, Step.take.injEq] at hstep
    obtain ⟨rfl, -, rfl⟩ := hstep
    simpa [Piece.source] using hword
  · split at hstep
    · next htagged =>
      simp only [Option.some.injEq, Step.take.injEq] at hstep
      obtain ⟨rfl, -, rfl⟩ := hstep
      simpa [htagged] using htag
    · next htagged =>
      simp only [Option.some.injEq, Step.take.injEq] at hstep
      obtain ⟨rfl, -, rfl⟩ := hstep
      simpa [htagged] using htag
  · simp at hstep

theorem sourceOf_of_step {indent : Nat} {stance next : Stance} {char : Char}
    {rest after : List Char} {pieces : List Piece}
    (hstep : step indent stance char rest = .take pieces next after) :
    sourceOf pieces ++ after = char :: rest := by
  unfold step at hstep
  split at hstep
  · simp only [Step.take.injEq] at hstep
    obtain ⟨rfl, -, rfl⟩ := hstep
    simp [Piece.source]
  split at hstep
  · simp at hstep
  split at hstep
  · next taken hnode =>
    split at hnode
    · exact sourceOf_of_nodeStep? (hstep ▸ hnode)
    · simp at hnode
  · simp only [Step.take.injEq] at hstep
    obtain ⟨rfl, -, rfl⟩ := hstep
    simp [Piece.source]

theorem sourceOf_scanBody (indent fuel : Nat) (stance : Stance) (chars : List Char) :
    sourceOf (scanBody indent fuel stance chars).pieces = chars := by
  induction fuel generalizing stance chars with
  | zero => simp [scanBody, Scan.copyRest]
  | succ fuel ih =>
      cases chars with
      | nil => simp [scanBody, Scan.copyRest]
      | cons char rest =>
          rw [scanBody]
          split
          · simp [Scan.copyRest, Piece.source]
          · next hstep => simp [ih, sourceOf_of_step hstep]

theorem sourceOf_scanLine (state : State) (line : List Char) :
    sourceOf (scanLine state line).pieces = line := by
  simp only [scanLine]
  split
  · exact sourceOf_scanBody ..
  · split
    · simp [Scan.copyRest]
    · exact sourceOf_scanBody ..
  · split
    · simp [Scan.copyRest]
    · next hclose => simp [sourceOf_scanBody, append_of_closeQuote hclose]

end RamlCheck.Include
