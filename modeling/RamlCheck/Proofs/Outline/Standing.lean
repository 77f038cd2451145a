import RamlCheck.Proofs.Outline.TokenFault
import RamlCheck.Proofs.Yaml.Cells

/-!
# Steps that keep to a text

While a text is cut into tokens, what is ahead is always its end, and the scalars among the
tokens have been put down to places where they begin (`Stands`).  A step keeps this if it only
takes characters from the front and puts down no scalar; those that take blanks, properties,
directives and what stands in quotes do (`Keeps`).

## Strategy

`Begins` says what it means that a scalar begins at some place of a text.  What is put down
somewhere else than at the place reached, a key or the start of a collection, is never a
scalar, so that nothing needs to be known about its place.
-/

namespace RamlCheck.Outline

open Std.Do
open Yaml (Mark Token TokenKind Spaces Cell markBehind)

set_option mvcgen.warning false

/-- Whether only spaces and tabs stand in front of the next break, or of the end. -/
def EndsLine (chars : List Char) : Prop :=
  ∀ char ∈ (chars.find? fun char => !(char = ' ' || char = '\t')), Yaml.isBreak12 char = true

/-- How a scalar begins in a text: as it is written, behind the breaks that only a block
scalar can begin with, up to its end or to where its first line ends; with a quote; or
anywhere, if it is a block scalar that holds only breaks. -/
inductive Begins (scalar : List Char) : List Char → Prop
  | written {breaks line rest behind : List Char} (hscalar : scalar = breaks ++ line ++ rest)
      (hbreaks : ∀ char ∈ breaks, char = '\n') (hline : line ≠ [])
      (hfold : rest ≠ [] → EndsLine behind) : Begins scalar (line ++ behind)
  | quoted {quote : Char} (hquote : quote = '\'' ∨ quote = '"') (behind : List Char) :
      Begins scalar (quote :: behind)
  | breaks (hbreaks : ∀ char ∈ scalar, char = '\n') (behind : List Char) : Begins scalar behind

/-- The cells of a text. -/
def cellsOf (text : String) : List Cell :=
  (Yaml.marked Yaml.isBreak12 (fun _ => 1) text).cells

/-- Whether a scalar begins at some place of a text. -/
def StartsAt (text : String) (mark : Mark) (scalar : List Char) : Prop :=
  ∃ before char after, text.toList = before ++ char :: after ∧ mark = markBehind before ∧
    Begins scalar (char :: after)

/-- Whether a token is a scalar. -/
def isScalar : TokenKind → Bool
  | .scalar _ _ => true
  | _ => false

/-- Whether a token begins at some place of a text, if it is a scalar. -/
def Placed (text : String) (mark : Mark) (kind : TokenKind) : Prop :=
  ∀ scalar isPlain, kind = .scalar scalar isPlain → StartsAt text mark scalar

/-- What is known while a text is cut into tokens: what is ahead is its end, and the
scalars among the tokens stand where they are put down. -/
structure Stands (text : String) (ahead : List Cell) (tokens : List Token) : Prop where
  suffix : ahead <:+ cellsOf text
  placed : ∀ token ∈ tokens, Placed text token.start token.kind

variable {text : String}

theorem placed_of_not_isScalar {kind : TokenKind} (hkind : isScalar kind = false) (mark : Mark) :
    Placed text mark kind := by
  rintro scalar isPlain rfl
  contradiction

theorem Stands.drop {ahead : List Cell} {tokens : List Token} (hstands : Stands text ahead tokens)
    (count : Nat) : Stands text (ahead.drop count) tokens where
  suffix := (List.drop_suffix _ _).trans hstands.suffix
  placed := hstands.placed

namespace Lex

/-- A step that keeps to the text and puts down no scalar where it does not stand. -/
abbrev Keeps (text : String) {Value : Type} (step : Lex Value) : Prop :=
  ⦃fun state => ⌜Stands text state.text.cells state.reversed⌝⦄ step
  ⦃post⟨fun _ state => ⌜Stands text state.text.cells state.reversed⌝, fun _ => ⌜True⌝⟩⦄

/-- Looking where the text stands changes nothing. -/
@[spec 2000]
theorem spec_here {post : PostCond Mark (.arg Lexing (.except Fault .pure))} :
    ⦃fun state => post.1 state.text.here state⦄ here ⦃post⦄ :=
  fun _ hpost => hpost

/-- A step that fails goes on nowhere. -/
@[spec 2000]
theorem spec_failAt {Value : Type} (mark : Mark) (problem : Problem)
    {post : PostCond Value (.arg Lexing (.except Fault .pure))} :
    ⦃fun _ => post.2.1 { problem, mark }⦄ (failAt mark problem : Lex Value) ⦃post⦄ :=
  fun _ hpost => hpost

@[spec 2000]
theorem spec_fail {Value : Type} (problem : Problem)
    {post : PostCond Value (.arg Lexing (.except Fault .pure))} :
    ⦃fun state => post.2.1 { problem, mark := state.text.here }⦄ (fail problem : Lex Value)
    ⦃post⦄ :=
  fun _ hpost => hpost

@[spec 2000]
theorem keeps_drop (count : Nat) : Keeps text (drop count) := by
  unfold drop
  mvcgen
  exact Stands.drop (by assumption) count

@[spec 2000]
theorem keeps_skipGap : Keeps text skipGap :=
  keeps_drop 1

@[spec 2000]
theorem keeps_skip (count : Nat) : Keeps text (skip count) := by
  unfold skip
  mvcgen

@[spec 2000]
theorem keeps_skipBreak : Keeps text skipBreak := by
  unfold skipBreak
  mvcgen

@[spec 2000]
theorem keeps_takeWhile (test : Char → Bool) : Keeps text (takeWhile test) := by
  unfold takeWhile
  mvcgen

@[spec 2000]
theorem keeps_skipGaps : Keeps text skipGaps := by
  unfold skipGaps
  mvcgen

@[spec 2000]
theorem keeps_skipLine : Keeps text skipLine := by
  unfold skipLine
  mvcgen

@[spec 2000]
theorem keeps_skipToLineEnd : Keeps text skipToLineEnd := by
  unfold skipToLineEnd
  mvcgen

@[spec 2000]
theorem keeps_discard_skipToLineEnd : Keeps text (discard skipToLineEnd) := by
  show Keeps text ((fun _ => ()) <$> skipToLineEnd)
  mvcgen

theorem keeps_emit_of_placed (kind : TokenKind) (mark : Mark) (hplaced : Placed text mark kind) :
    Keeps text (emit kind mark) := by
  unfold emit
  mvcgen
  next hstands _ =>
    exact ⟨hstands.suffix, List.forall_mem_cons.mpr ⟨hplaced, hstands.placed⟩⟩

@[spec 2000]
theorem keeps_emit (kind : TokenKind) (mark : Mark) (hkind : isScalar kind = false) :
    Keeps text (emit kind mark) :=
  keeps_emit_of_placed kind mark (placed_of_not_isScalar hkind mark)

@[spec 2000]
theorem keeps_insertAt (number : Nat) (kind : TokenKind) (mark : Mark)
    (hkind : isScalar kind = false) : Keeps text (insertAt number kind mark) := by
  unfold insertAt
  mvcgen
  next hstands _ =>
    refine ⟨hstands.suffix, fun token htoken => ?_⟩
    rcases List.mem_append.mp htoken with htoken | htoken
    · exact hstands.placed token (List.mem_of_mem_take htoken)
    · rcases List.mem_cons.mp htoken with rfl | htoken
      · exact placed_of_not_isScalar hkind mark
      · exact hstands.placed token (List.mem_of_mem_drop htoken)

@[spec 2000]
theorem keeps_saveCandidate : Keeps text saveCandidate := by
  unfold saveCandidate
  mvcgen

@[spec 2000]
theorem keeps_dropCandidate : Keeps text dropCandidate := by
  unfold dropCandidate
  mvcgen

@[spec 2000]
theorem keeps_dropStale : Keeps text dropStale := by
  unfold dropStale
  mvcgen

@[spec 2000]
theorem keeps_enterFlow : Keeps text enterFlow := by
  unfold enterFlow
  mvcgen

@[spec 2000]
theorem keeps_leaveFlow : Keeps text leaveFlow := by
  unfold leaveFlow
  mvcgen
  next state hstands after =>
    cases houter : state.outerCandidates with
    | nil => simpa only [after, houter] using hstands
    | cons candidate outer => simpa only [after, houter] using hstands

theorem stands_withoutContentIndent {state : Lexing} (column : Nat)
    (hstands : Stands text state.text.cells state.reversed) :
    Stands text (withoutContentIndent column state).text.cells
      (withoutContentIndent column state).reversed := by
  unfold withoutContentIndent
  split
  · exact hstands
  · split <;> exact hstands

@[spec 2000]
theorem keeps_indentTo (column : Nat) (number : Option Nat) (kind : TokenKind) (mark : Mark)
    (hkind : isScalar kind = false) : Keeps text (indentTo column number kind mark) := by
  unfold indentTo
  mvcgen
  all_goals exact stands_withoutContentIndent column (by assumption)

@[spec 2000]
theorem keeps_indentContent : Keeps text indentContent := by
  unfold indentContent
  mvcgen

@[spec 2000]
theorem keeps_leaveIndents (column : Int) (mark : Mark) (indents : List Indent) :
    Keeps text (leaveIndents column mark indents) := by
  induction indents with
  | nil =>
      unfold leaveIndents
      mvcgen
  | cons indent indents ih =>
      unfold leaveIndents
      mvcgen [-failsOnOneLine_leaveIndents, ih]

@[spec 2000]
theorem keeps_unindentTo (column : Int) : Keeps text (unindentTo column) := by
  unfold unindentTo
  mvcgen

@[spec 2000]
theorem keeps_skipToToken (remaining : Nat) : Keeps text (skipToToken remaining) := by
  induction remaining with
  | zero =>
      unfold skipToToken
      mvcgen
  | succ remaining ih =>
      unfold skipToToken
      mvcgen [-failsOnOneLine_skipToToken, ih]

end Lex

open Outline.Lex

/-! ## Properties and directives -/

@[spec 2000]
theorem keeps_scanName : Keeps text scanName := by
  unfold scanName
  mvcgen

@[spec 2000]
theorem keeps_scanOctet (start : Mark) : Keeps text (scanOctet start) := by
  unfold scanOctet
  mvcgen

@[spec 2000]
theorem keeps_scanTrailing (start : Mark) (remaining joined : Nat) :
    Keeps text (scanTrailing start remaining joined) := by
  induction remaining generalizing joined with
  | zero =>
      unfold scanTrailing
      mvcgen
  | succ remaining ih =>
      unfold scanTrailing
      mvcgen [-failsOnOneLine_scanTrailing, ih]

@[spec 2000]
theorem keeps_scanEscapedChar (start : Mark) : Keeps text (scanEscapedChar start) := by
  unfold scanEscapedChar
  mvcgen

@[spec 2000]
theorem keeps_scanTagChars (test : Char → Bool) (start : Mark) (remaining : Nat) :
    Keeps text (scanTagChars test start remaining) := by
  induction remaining with
  | zero =>
      unfold scanTagChars
      mvcgen
  | succ remaining ih =>
      unfold scanTagChars
      mvcgen [-failsOnOneLine_scanTagChars, ih]

@[spec 2000]
theorem keeps_scanHandle (directive : Bool) (start : Mark) :
    Keeps text (scanHandle directive start) := by
  unfold scanHandle
  mvcgen

@[spec 2000]
theorem keeps_scanVerbatim (start : Mark) : Keeps text (scanVerbatim start) := by
  unfold scanVerbatim
  mvcgen

@[spec 2000]
theorem keeps_scanShorthand (start : Mark) : Keeps text (scanShorthand start) := by
  unfold scanShorthand
  mvcgen

@[spec 2000]
theorem keeps_scanTag : Keeps text scanTag := by
  unfold scanTag
  mvcgen

@[spec 2000]
theorem keeps_scanVersionNumber (start : Mark) : Keeps text (scanVersionNumber start) := by
  unfold scanVersionNumber
  mvcgen

/-- A step that keeps to the text and finds something else than a scalar. -/
abbrev Marks (text : String) (step : Lex TokenKind) : Prop :=
  ⦃fun state => ⌜Stands text state.text.cells state.reversed⌝⦄ step
  ⦃post⟨fun kind state => ⌜Stands text state.text.cells state.reversed ∧ isScalar kind = false⌝,
    fun _ => ⌜True⌝⟩⦄

@[spec 2000]
theorem marks_scanVersion (start : Mark) : Marks text (scanVersion start) := by
  unfold scanVersion
  mvcgen

@[spec 2000]
theorem marks_scanTagPrefix (start : Mark) : Marks text (scanTagPrefix start) := by
  unfold scanTagPrefix
  mvcgen

@[spec 2000]
theorem marks_scanDirective : Marks text scanDirective := by
  unfold scanDirective
  mvcgen
  all_goals
    first
    | exact And.left ‹_ ∧ isScalar _ = false›
    | exact ⟨by assumption, And.right ‹_ ∧ isScalar _ = false›⟩

/-! ## Scalars -/

theorem keeps_codePoint (start : Mark) (count point : Nat) :
    Keeps text (if point.isValidChar then do
      skip count
      return Char.ofNat point
    else failAt start .badCodePoint) := by
  split <;> mvcgen

@[spec 2000]
theorem keeps_scanEscape (start : Mark) : Keeps text (scanEscape start) := by
  unfold scanEscape
  mvcgen [keeps_codePoint]

@[spec 2000]
theorem keeps_quotedWord (single : Bool) (start : Mark) (remaining : Nat) :
    Keeps text (quotedWord single start remaining) := by
  induction remaining with
  | zero =>
      unfold quotedWord
      mvcgen
  | succ remaining ih =>
      unfold quotedWord
      mvcgen [-failsOnOneLine_quotedWord, ih]

@[spec 2000]
theorem keeps_takeQuotedSpaces (remaining : Nat) (spaces : Spaces) :
    Keeps text (takeQuotedSpaces remaining spaces) := by
  induction remaining generalizing spaces with
  | zero =>
      unfold takeQuotedSpaces
      mvcgen
  | succ remaining ih =>
      unfold takeQuotedSpaces
      mvcgen [-failsOnOneLine_takeQuotedSpaces, ih]

@[spec 2000]
theorem keeps_quotedWords (single : Bool) (start : Mark) (remaining : Nat) (words : List Char) :
    Keeps text (quotedWords single start remaining words) := by
  induction remaining generalizing words with
  | zero =>
      unfold quotedWords
      mvcgen
  | succ remaining ih =>
      unfold quotedWords
      mvcgen [-failsOnOneLine_quotedWords, ih]

@[spec 2000]
theorem keeps_scanQuoted (single : Bool) : Keeps text (scanQuoted single) := by
  unfold scanQuoted
  mvcgen

@[spec 2000]
theorem keeps_takePlainSpaces (start : Mark) (indent : Int) (remaining : Nat) (spaces : Spaces) :
    Keeps text (takePlainSpaces start indent remaining spaces) := by
  induction remaining generalizing spaces with
  | zero =>
      unfold takePlainSpaces
      mvcgen
  | succ remaining ih =>
      unfold takePlainSpaces
      mvcgen [-failsOnOneLine_takePlainSpaces, ih]

end RamlCheck.Outline
