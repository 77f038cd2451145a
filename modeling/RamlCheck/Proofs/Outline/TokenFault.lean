import RamlCheck.Outline.TokenList
import RamlCheck.Proofs.Reader

/-!
# Faults of the tokens of an outline

Only the fault of a character that starts no token shows a character of the text, and a
line feed is not such a character.  So the words of every fault stay on one line
(`onOneLine_run`).

## Strategy

Each step from one token to the next has its triple: if it fails, then with such a fault.
The triples follow the steps of the lexer one by one, and its loops are inductions on
their counters.
-/

namespace RamlCheck.Outline

open Std.Do
open Yaml (Mark Marked Token TokenKind Spaces)

set_option mvcgen.warning false

/-- Whether the words of a fault stay on one line: it does not show a line feed. -/
def Fault.OnOneLine (fault : Fault) : Prop :=
  fault.problem ≠ .strayCharacter '\n'

namespace Lex

/-- Whether a step fails only with words that stay on one line. -/
abbrev FailsOnOneLine {Value : Type} (step : Lex Value) : Prop :=
  ⦃⌜True⌝⦄ step ⦃post⟨fun _ => ⌜True⌝, fun fault => ⌜fault.OnOneLine⌝⟩⦄

-- these steps only look at the state or change it
attribute [spec] peek looksAt inFlow fuel drop skipGap skipGaps emit insertAt allowKey leaveFlow
  leaveContentIndents

@[spec]
theorem failsOnOneLine_failAt {Value : Type} (mark : Yaml.Mark) (problem : Problem) :
    ⦃⌜problem ≠ .strayCharacter '\n'⌝⦄ (failAt mark problem : Lex Value)
    ⦃post⟨fun _ => ⌜True⌝, fun fault => ⌜fault.OnOneLine⌝⟩⦄ := by
  mvcgen [failAt]

@[spec]
theorem failsOnOneLine_here : FailsOnOneLine here := by
  mvcgen [here]

@[spec]
theorem failsOnOneLine_fail {Value : Type} (problem : Problem) :
    ⦃⌜problem ≠ .strayCharacter '\n'⌝⦄ (fail problem : Lex Value)
    ⦃post⟨fun _ => ⌜True⌝, fun fault => ⌜fault.OnOneLine⌝⟩⦄ := by
  mvcgen [fail]

@[spec]
theorem failsOnOneLine_skip (count : Nat) : FailsOnOneLine (skip count) := by
  mvcgen [skip]

@[spec]
theorem failsOnOneLine_skipBreak : FailsOnOneLine skipBreak := by
  mvcgen [skipBreak]

@[spec]
theorem failsOnOneLine_takeWhile (test : Char → Bool) : FailsOnOneLine (takeWhile test) := by
  mvcgen [takeWhile]

@[spec]
theorem failsOnOneLine_skipLine : FailsOnOneLine skipLine := by
  mvcgen [skipLine]

@[spec]
theorem failsOnOneLine_skipToLineEnd : FailsOnOneLine skipToLineEnd := by
  mvcgen [skipToLineEnd]
  all_goals decide

@[spec]
theorem failsOnOneLine_discard_skipToLineEnd : FailsOnOneLine (discard skipToLineEnd) := by
  show FailsOnOneLine ((fun _ => ()) <$> skipToLineEnd)
  mvcgen

@[spec]
theorem failsOnOneLine_dropCandidate : FailsOnOneLine dropCandidate := by
  mvcgen [dropCandidate]
  all_goals decide

@[spec]
theorem failsOnOneLine_saveCandidate : FailsOnOneLine saveCandidate := by
  mvcgen [saveCandidate]

@[spec]
theorem failsOnOneLine_dropStale : FailsOnOneLine dropStale := by
  mvcgen [dropStale]
  all_goals decide

@[spec]
theorem failsOnOneLine_enterFlow : FailsOnOneLine enterFlow := by
  mvcgen [enterFlow]
  all_goals decide

@[spec]
theorem failsOnOneLine_indentTo (column : Nat) (number : Option Nat) (kind : TokenKind)
    (mark : Mark) :
    FailsOnOneLine (indentTo column number kind mark) := by
  mvcgen [indentTo]

@[spec]
theorem failsOnOneLine_indentContent : FailsOnOneLine indentContent := by
  mvcgen [indentContent]

@[spec]
theorem failsOnOneLine_leaveIndents (column : Int) (mark : Mark) (indents : List Indent) :
    FailsOnOneLine (leaveIndents column mark indents) := by
  induction indents with
  | nil => mvcgen [leaveIndents]
  | cons indent indents ih => mvcgen [leaveIndents, ih]

@[spec]
theorem failsOnOneLine_unindentTo (column : Int) : FailsOnOneLine (unindentTo column) := by
  mvcgen [unindentTo]

@[spec]
theorem failsOnOneLine_skipToToken (remaining : Nat) : FailsOnOneLine (skipToToken remaining) := by
  induction remaining with
  | zero => mvcgen [skipToToken]
  | succ remaining ih =>
      mvcgen [skipToToken, ih]
      all_goals decide

end Lex

open Outline.Lex

/-! ## Properties and directives -/

@[spec]
theorem failsOnOneLine_scanName : FailsOnOneLine scanName := by
  mvcgen [scanName]
  all_goals decide

@[spec]
theorem failsOnOneLine_scanOctet (start : Mark) : FailsOnOneLine (scanOctet start) := by
  mvcgen [scanOctet]
  all_goals decide

@[spec]
theorem failsOnOneLine_scanTrailing (start : Mark) (remaining joined : Nat) :
    FailsOnOneLine (scanTrailing start remaining joined) := by
  induction remaining generalizing joined with
  | zero => mvcgen [scanTrailing]
  | succ remaining ih =>
      mvcgen [scanTrailing, ih]
      all_goals decide

@[spec]
theorem failsOnOneLine_scanEscapedChar (start : Mark) : FailsOnOneLine (scanEscapedChar start) := by
  mvcgen [scanEscapedChar]
  all_goals decide

@[spec]
theorem failsOnOneLine_scanTagChars (test : Char → Bool) (start : Mark) (remaining : Nat) :
    FailsOnOneLine (scanTagChars test start remaining) := by
  induction remaining with
  | zero => mvcgen [scanTagChars]
  | succ remaining ih =>
      mvcgen [scanTagChars, ih]

@[spec]
theorem failsOnOneLine_scanHandle (directive : Bool) (start : Mark) :
    FailsOnOneLine (scanHandle directive start) := by
  mvcgen [scanHandle]
  all_goals decide

@[spec]
theorem failsOnOneLine_scanVerbatim (start : Mark) : FailsOnOneLine (scanVerbatim start) := by
  mvcgen [scanVerbatim]
  all_goals decide

@[spec]
theorem failsOnOneLine_scanShorthand (start : Mark) : FailsOnOneLine (scanShorthand start) := by
  mvcgen [scanShorthand]
  all_goals decide

@[spec]
theorem failsOnOneLine_scanTag : FailsOnOneLine scanTag := by
  mvcgen [scanTag]
  all_goals decide

@[spec]
theorem failsOnOneLine_scanVersionNumber (start : Mark) :
    FailsOnOneLine (scanVersionNumber start) := by
  mvcgen [scanVersionNumber]
  all_goals decide

@[spec]
theorem failsOnOneLine_scanVersion (start : Mark) : FailsOnOneLine (scanVersion start) := by
  mvcgen [scanVersion]
  all_goals decide

@[spec]
theorem failsOnOneLine_scanTagPrefix (start : Mark) : FailsOnOneLine (scanTagPrefix start) := by
  mvcgen [scanTagPrefix]
  all_goals decide

@[spec]
theorem failsOnOneLine_scanDirective : FailsOnOneLine scanDirective := by
  mvcgen [scanDirective]
  all_goals decide

/-! ## Scalars -/

/-- The character that the digits of an escape name. -/
theorem failsOnOneLine_codePoint (start : Mark) (count point : Nat) :
    FailsOnOneLine (if point.isValidChar then do
      skip count
      return Char.ofNat point
    else failAt start .badCodePoint) := by
  split
  · mvcgen
  · mvcgen
    decide

@[spec]
theorem failsOnOneLine_scanEscape (start : Mark) : FailsOnOneLine (scanEscape start) := by
  mvcgen [scanEscape, failsOnOneLine_codePoint]
  all_goals decide

@[spec]
theorem failsOnOneLine_quotedWord (single : Bool) (start : Mark) (remaining : Nat) :
    FailsOnOneLine (quotedWord single start remaining) := by
  induction remaining with
  | zero => mvcgen [quotedWord]
  | succ remaining ih =>
      mvcgen [quotedWord, ih]

@[spec]
theorem failsOnOneLine_takeQuotedSpaces (remaining : Nat) (spaces : Spaces) :
    FailsOnOneLine (takeQuotedSpaces remaining spaces) := by
  induction remaining generalizing spaces with
  | zero => mvcgen [takeQuotedSpaces]
  | succ remaining ih =>
      mvcgen [takeQuotedSpaces, ih]
      all_goals decide

@[spec]
theorem failsOnOneLine_quotedWords (single : Bool) (start : Mark) (remaining : Nat)
    (text : List Char) :
    FailsOnOneLine (quotedWords single start remaining text) := by
  induction remaining generalizing text with
  | zero => mvcgen [quotedWords]
  | succ remaining ih =>
      mvcgen [quotedWords, ih]
      all_goals decide

@[spec]
theorem failsOnOneLine_scanQuoted (single : Bool) : FailsOnOneLine (scanQuoted single) := by
  mvcgen [scanQuoted]
  all_goals decide

@[spec]
theorem failsOnOneLine_takePlainSpaces (start : Mark) (indent : Int) (remaining : Nat)
    (spaces : Spaces) :
    FailsOnOneLine (takePlainSpaces start indent remaining spaces) := by
  induction remaining generalizing spaces with
  | zero => mvcgen [takePlainSpaces]
  | succ remaining ih =>
      mvcgen [takePlainSpaces, ih]
      all_goals decide

@[spec]
theorem failsOnOneLine_plainWords (start : Mark) (indent : Int) (remaining : Nat)
    (text : List Char) (spaces : Spaces) :
    FailsOnOneLine (plainWords start indent remaining text spaces) := by
  induction remaining generalizing text spaces with
  | zero => mvcgen [plainWords]
  | succ remaining ih =>
      mvcgen [plainWords, ih]
      all_goals decide

@[spec]
theorem failsOnOneLine_scanPlain : FailsOnOneLine scanPlain := by
  mvcgen [scanPlain]
  all_goals decide

@[spec]
theorem failsOnOneLine_scanChomping : FailsOnOneLine scanChomping := by
  mvcgen [scanChomping]

@[spec]
theorem failsOnOneLine_scanIncrement (start : Mark) : FailsOnOneLine (scanIncrement start) := by
  mvcgen [scanIncrement]
  all_goals decide

@[spec]
theorem failsOnOneLine_scanBlockHeader (start : Mark) : FailsOnOneLine (scanBlockHeader start) := by
  mvcgen [scanBlockHeader]

@[spec]
theorem failsOnOneLine_blockBreaks (indent : Option Nat) (remaining reached : Nat)
    (breaks : List Char) :
    FailsOnOneLine (blockBreaks indent remaining reached breaks) := by
  induction remaining generalizing reached breaks with
  | zero => mvcgen [blockBreaks]
  | succ remaining ih =>
      mvcgen [blockBreaks, ih]

@[spec]
theorem failsOnOneLine_blockLines (literal : Bool) (indent remaining : Nat) (block : BlockText)
    (afterBlank : Bool) :
    FailsOnOneLine (blockLines literal indent remaining block afterBlank) := by
  induction remaining generalizing block afterBlank with
  | zero => mvcgen [blockLines]
  | succ remaining ih =>
      mvcgen [blockLines, ih]

@[spec]
theorem failsOnOneLine_scanBlock (literal : Bool) : FailsOnOneLine (scanBlock literal) := by
  mvcgen [scanBlock]
  all_goals decide

/-! ## Tokens -/

namespace Lex

@[spec]
theorem failsOnOneLine_closePair (mark : Mark) : FailsOnOneLine (closePair mark) := by
  mvcgen [closePair]

@[spec]
theorem failsOnOneLine_endStream : FailsOnOneLine endStream := by
  mvcgen [endStream]
  all_goals decide

@[spec]
theorem failsOnOneLine_closeAll : FailsOnOneLine closeAll := by
  mvcgen [closeAll]

@[spec]
theorem failsOnOneLine_directive : FailsOnOneLine directive := by
  mvcgen [directive]

@[spec]
theorem failsOnOneLine_documentStart : FailsOnOneLine documentStart := by
  mvcgen [documentStart]

@[spec]
theorem failsOnOneLine_documentEnd : FailsOnOneLine documentEnd := by
  mvcgen [documentEnd]
  all_goals decide

@[spec]
theorem failsOnOneLine_openFlow (kind : TokenKind) : FailsOnOneLine (openFlow kind) := by
  mvcgen [openFlow]

@[spec]
theorem failsOnOneLine_closeFlow (kind : TokenKind) : FailsOnOneLine (closeFlow kind) := by
  mvcgen [closeFlow]

@[spec]
theorem failsOnOneLine_flowEntry : FailsOnOneLine flowEntry := by
  mvcgen [flowEntry]

@[spec]
theorem failsOnOneLine_propertyAtLineStart : FailsOnOneLine propertyAtLineStart? := by
  mvcgen [propertyAtLineStart?]

@[spec]
theorem failsOnOneLine_blockEntry : FailsOnOneLine blockEntry := by
  mvcgen [blockEntry]
  all_goals decide

@[spec]
theorem failsOnOneLine_skipBehindKey (remaining : Nat) (found : Bool) :
    FailsOnOneLine (skipBehindKey remaining found) := by
  induction remaining generalizing found with
  | zero => mvcgen [skipBehindKey]
  | succ remaining ih =>
      mvcgen [skipBehindKey, ih]

@[spec]
theorem failsOnOneLine_explicitKey : FailsOnOneLine explicitKey := by
  mvcgen [explicitKey]
  all_goals decide

@[spec]
theorem failsOnOneLine_skipBehindColon : FailsOnOneLine skipBehindColon := by
  mvcgen [skipBehindColon]
  all_goals decide

@[spec]
theorem failsOnOneLine_valueIndicator : FailsOnOneLine valueIndicator := by
  mvcgen [valueIndicator]
  all_goals decide

theorem failsOnOneLine_keyLike {kind : Lex TokenKind} (hkind : kind.FailsOnOneLine) :
    FailsOnOneLine (keyLike kind) := by
  mvcgen [keyLike, hkind]

@[spec]
theorem failsOnOneLine_quoted (single : Bool) : FailsOnOneLine (quoted single) := by
  mvcgen [quoted]

@[spec]
theorem failsOnOneLine_block (literal : Bool) : FailsOnOneLine (block literal) := by
  mvcgen [block]

@[spec]
theorem failsOnOneLine_tokenAt (char : Char) : FailsOnOneLine (tokenAt char) := by
  have haliased : FailsOnOneLine (keyLike (do return .aliased (← scanName))) :=
    failsOnOneLine_keyLike (by mvcgen)
  have hanchor : FailsOnOneLine (keyLike (do return .anchor (← scanName))) :=
    failsOnOneLine_keyLike (by mvcgen)
  have htag : FailsOnOneLine (keyLike (do return .tag (← scanTag))) :=
    failsOnOneLine_keyLike (by mvcgen)
  have hplain : FailsOnOneLine (keyLike (do return .scalar (← scanPlain) true)) :=
    failsOnOneLine_keyLike (by mvcgen)
  mvcgen [tokenAt, haliased, hanchor, htag, hplain]
  next hstray =>
    -- a line feed is none of the characters that start no token
    intro hsame
    obtain rfl := Problem.strayCharacter.inj hsame
    exact absurd hstray (by decide)

@[spec]
theorem failsOnOneLine_next : FailsOnOneLine next := by
  mvcgen [next]
  all_goals decide

end Lex

/-- The fault of a list of tokens stays on one line. -/
theorem onOneLine_run (remaining : Nat) {state : Lexing} :
    ∀ fault ∈ (state.run remaining).fault, fault.OnOneLine := by
  -- a round is a step and the giving up of candidates behind it
  have hboth : FailsOnOneLine (do Lex.next; Lex.dropStale) := by
    mvcgen
  induction remaining generalizing state with
  | zero => exact fun fault hfault => absurd hfault (by simp [Lexing.run])
  | succ remaining ih =>
      unfold Lexing.run
      split
      · simp
      · split
        · exact ih
        · next fault hrun =>
          intro other hother
          rw [← Option.some.inj hother]
          exact Reader.error_of_triple hboth trivial hrun

end RamlCheck.Outline
