import RamlCheck.Proofs.Reader
import RamlCheck.Yaml.TokenList

/-!
# Where tokens stand behind a comment

A text that starts with a comment has no token at its start but that of the stream itself
(`isBehindStart_of_mem_tokens`).

## Strategy

The first step takes the comment, so that whatever is ahead from then on stands behind the
start (`Marked.IsBehindStart`).  Reading a scalar, a tag or a directive only takes cells from
the front, which leaves it so.
-/

namespace RamlCheck.Yaml

open Std.Do

set_option mvcgen.warning false

/-- Whether a place is not the start of a text. -/
def Mark.IsBehindStart (mark : Mark) : Prop :=
  mark.line ≠ 0 ∨ mark.column ≠ 0

/-- Whether nothing that is ahead stands at the start of the text. -/
structure Marked.IsBehindStart (text : Marked) : Prop where
  cells : ∀ cell ∈ text.cells, cell.mark.IsBehindStart
  finish : text.finish.IsBehindStart

/-- The end of a text counts as the start of a line, which is not the first one. -/
theorem Mark.IsBehindStart.lineStart {mark : Mark}
    (hmark : mark.IsBehindStart) :
    (if mark.column = 0 then mark
      else { mark with line := mark.line + 1, column := 0 }).IsBehindStart := by
  split
  · exact hmark
  · exact .inl (Nat.succ_ne_zero _)

namespace Marked

variable {text : Marked}

theorem IsBehindStart.here (htext : text.IsBehindStart) : text.here.IsBehindStart := by
  unfold Marked.here markOf
  split
  · exact htext.finish
  · next cell others hcells => exact htext.cells cell (hcells ▸ List.mem_cons_self)

theorem IsBehindStart.drop (htext : text.IsBehindStart) (count : Nat) :
    IsBehindStart { text with cells := text.cells.drop count } :=
  ⟨fun cell hcell => htext.cells cell (List.mem_of_mem_drop hcell), htext.finish⟩

/-- Whether a text starts with a comment and all else in it stands behind its start. -/
inductive StartsWithComment : Marked → Prop
  | intro {cell : Cell} {cells : List Cell} {finish : Mark} (hchar : cell.char = '#')
      (hbreak : cell.isBreak = false) (hbehind : IsBehindStart { cells, finish }) :
      StartsWithComment { cells := cell :: cells, finish }

theorem StartsWithComment.ahead?_eq (htext : text.StartsWithComment) :
    text.ahead? 0 = some '#' := by
  obtain ⟨hchar, -, -⟩ := htext
  exact congrArg some hchar

end Marked

/-! ## Steps over the text -/

namespace Scan

/-- A step over a text behind whose start it stays. -/
abbrev StaysBehind {Value : Type} (step : Scan Value) : Prop :=
  ⦃fun text => ⌜text.IsBehindStart⌝⦄ step
  ⦃post⟨fun _ text => ⌜text.IsBehindStart⌝, fun _ => ⌜True⌝⟩⦄

/-- A step that fails does so at the place reached. -/
@[spec]
theorem spec_fail {Value : Type} (activity : Option Activity) (problem : Problem)
    {post : PostCond Value (.arg Marked (.except Fault .pure))} :
    ⦃fun text => post.2.1 (Fault.of problem text.here activity)⦄
    (fail activity problem : Scan Value) ⦃post⦄ :=
  fun _ hpost => hpost

@[spec]
theorem staysBehind_here : StaysBehind here := by
  unfold here
  mvcgen

@[spec]
theorem staysBehind_peek : StaysBehind peek := by
  unfold peek
  mvcgen

@[spec]
theorem staysBehind_looksAt (test : Marked → Bool) : StaysBehind (looksAt test) := by
  unfold looksAt
  mvcgen

@[spec]
theorem staysBehind_fuel : StaysBehind fuel := by
  unfold fuel
  mvcgen

@[spec]
theorem staysBehind_skip (count : Nat) : StaysBehind (skip count) := by
  unfold skip
  mvcgen
  exact Marked.IsBehindStart.drop ‹_› count

@[spec]
theorem staysBehind_takeWhile (test : Cell → Bool) : StaysBehind (takeWhile test) := by
  unfold takeWhile
  mvcgen
  exact Marked.IsBehindStart.drop ‹_› _

@[spec]
theorem staysBehind_discard {Value : Type} {step : Scan Value} (hstep : StaysBehind step) :
    StaysBehind (discard step) := by
  have hdiscard : discard step = (fun _ => ()) <$> step := rfl
  rw [hdiscard]
  mvcgen [hstep]

@[spec]
theorem staysBehind_skipGap : StaysBehind skipGap := by
  unfold skipGap
  mvcgen

@[spec]
theorem staysBehind_skipLine : StaysBehind skipLine := by
  unfold skipLine
  mvcgen

@[spec]
theorem staysBehind_skipComment : StaysBehind skipComment := by
  unfold skipComment
  mvcgen

@[spec]
theorem staysBehind_skipBreak : StaysBehind skipBreak := by
  unfold skipBreak
  mvcgen

/-- Taking a comment leaves nothing at the start. -/
theorem takesComment (tabs : Bool) :
    ⦃fun text => ⌜text.StartsWithComment⌝⦄
    (do
      discard (takeWhile fun cell => cell.char = ' ' || (tabs && cell.char = '\t'))
      skipComment)
    ⦃post⟨fun _ text => ⌜text.IsBehindStart⌝, fun _ => ⌜True⌝⟩⦄ := by
  refine Reader.triple_of_run fun text htext => ?_
  cases htext with
  | @intro cell cells finish hchar hbreak hbehind =>
    -- the first character opens the comment, so nothing is taken in front of it
    let line : Cell → Bool := fun cell => !cell.isBreak
    have hrun : (do
        discard (takeWhile fun cell => cell.char = ' ' || (tabs && cell.char = '\t'))
        skipComment : Scan Unit).run { cells := cell :: cells, finish } =
          .ok ((), { cells := cells.drop (cells.takeWhile line).length, finish }) := by
      simp [discard, takeWhile, skipComment, skipLine, peek, Marked.ahead?, hchar, hbreak, line]
      rfl
    rw [hrun]
    exact hbehind.drop _

/-! ## Names, tags and directives -/

@[spec]
theorem staysBehind_scanName (activity : Activity) : StaysBehind (scanName activity) := by
  unfold scanName
  mvcgen

@[spec]
theorem staysBehind_scanOctet (activity : Activity) : StaysBehind (scanOctet activity) := by
  unfold scanOctet
  mvcgen

@[spec]
theorem staysBehind_scanTrailing (activity : Activity) (remaining : Nat) :
    StaysBehind (scanTrailing activity remaining) := by
  induction remaining with
  | zero =>
      unfold scanTrailing
      mvcgen
  | succ remaining ih =>
      unfold scanTrailing
      mvcgen [ih]

@[spec]
theorem staysBehind_scanEscapedChar (activity : Activity) :
    StaysBehind (scanEscapedChar activity) := by
  unfold scanEscapedChar
  mvcgen

@[spec]
theorem staysBehind_scanTagBytes (wide : Bool) (activity : Activity) (remaining : Nat) :
    StaysBehind (scanTagBytes wide activity remaining) := by
  induction remaining with
  | zero =>
      unfold scanTagBytes
      mvcgen
  | succ remaining ih =>
      unfold scanTagBytes
      mvcgen [ih]

@[spec]
theorem staysBehind_scanSuffix (wide : Bool) (activity : Activity) (known : List Char)
    (mayBeEmpty : Bool) : StaysBehind (scanSuffix wide activity known mayBeEmpty) := by
  unfold scanSuffix
  mvcgen

@[spec]
theorem staysBehind_scanHandle (directive : Bool) : StaysBehind (scanHandle directive) := by
  unfold scanHandle
  mvcgen

@[spec]
theorem staysBehind_scanTag (inFlow : Bool) : StaysBehind (scanTag inFlow) := by
  unfold scanTag
  mvcgen

@[spec]
theorem staysBehind_scanVersionNumber : StaysBehind scanVersionNumber := by
  unfold scanVersionNumber
  mvcgen

@[spec]
theorem staysBehind_scanVersion : StaysBehind scanVersion := by
  unfold scanVersion
  mvcgen

@[spec]
theorem staysBehind_scanTagPrefix : StaysBehind scanTagPrefix := by
  unfold scanTagPrefix
  mvcgen

/-- A directive starts where it is read. -/
@[spec]
theorem spec_scanDirective :
    ⦃fun text => ⌜text.IsBehindStart⌝⦄ scanDirective
    ⦃post⟨fun token text => ⌜text.IsBehindStart ∧ token.start.IsBehindStart⌝,
      fun _ => ⌜True⌝⟩⦄ := by
  have hhere : ⦃fun text => ⌜text.IsBehindStart⌝⦄ here
      ⦃post⟨fun mark text => ⌜text.IsBehindStart ∧ mark.IsBehindStart⌝, fun _ => ⌜True⌝⟩⦄ := by
    unfold here
    mvcgen
    exact ⟨‹_›, Marked.IsBehindStart.here ‹_›⟩
  unfold scanDirective
  mvcgen [-staysBehind_here, hhere]
  all_goals
    first
    | exact And.left ‹_ ∧ Mark.IsBehindStart _›
    | exact ⟨by assumption, And.right ‹_ ∧ Mark.IsBehindStart _›⟩

/-! ## Texts of scalars -/

@[spec]
theorem staysBehind_takeSpaces (indent remaining : Nat) (spaces : Spaces) :
    StaysBehind (takeSpaces indent remaining spaces) := by
  induction remaining generalizing spaces with
  | zero =>
      unfold takeSpaces
      mvcgen
  | succ remaining ih =>
      unfold takeSpaces
      mvcgen [ih]

@[spec]
theorem staysBehind_plainWords (flow : Bool) (indent remaining : Nat) (text : List Char)
    (spaces : Spaces) : StaysBehind (plainWords flow indent remaining text spaces) := by
  induction remaining generalizing text spaces with
  | zero =>
      unfold plainWords
      mvcgen
  | succ remaining ih =>
      unfold plainWords
      mvcgen [ih]

@[spec]
theorem staysBehind_scanEscape : StaysBehind scanEscape := by
  unfold scanEscape
  mvcgen

@[spec]
theorem staysBehind_quotedWord (single : Bool) (remaining : Nat) :
    StaysBehind (quotedWord single remaining) := by
  induction remaining with
  | zero =>
      unfold quotedWord
      mvcgen
  | succ remaining ih =>
      unfold quotedWord
      mvcgen [ih]

@[spec]
theorem staysBehind_quotedText (single : Bool) (remaining : Nat) (text : List Char) :
    StaysBehind (quotedText single remaining text) := by
  induction remaining generalizing text with
  | zero =>
      unfold quotedText
      mvcgen
  | succ remaining ih =>
      unfold quotedText
      mvcgen [ih]

@[spec]
theorem staysBehind_scanChomping : StaysBehind scanChomping := by
  unfold scanChomping
  mvcgen

@[spec]
theorem staysBehind_scanIncrement : StaysBehind scanIncrement := by
  unfold scanIncrement
  mvcgen

@[spec]
theorem staysBehind_scanBlockHeader : StaysBehind scanBlockHeader := by
  unfold scanBlockHeader
  mvcgen

@[spec]
theorem staysBehind_blockBreaks (indent : Option Nat) (remaining reached : Nat)
    (breaks : List Char) : StaysBehind (blockBreaks indent remaining reached breaks) := by
  induction remaining generalizing reached breaks with
  | zero =>
      unfold blockBreaks
      mvcgen
  | succ remaining ih =>
      unfold blockBreaks
      mvcgen [ih]

@[spec]
theorem staysBehind_blockLines (literal : Bool) (indent remaining : Nat)
    (text firstBreak otherBreaks : List Char) (afterBlank : Bool) :
    StaysBehind (blockLines literal indent remaining text firstBreak otherBreaks afterBlank) := by
  induction remaining generalizing text firstBreak otherBreaks afterBlank with
  | zero =>
      unfold blockLines
      mvcgen
  | succ remaining ih =>
      unfold blockLines
      mvcgen [ih]

@[spec]
theorem staysBehind_scanBlock (literal : Bool) (parent : Int) :
    StaysBehind (scanBlock literal parent) := by
  unfold scanBlock
  mvcgen

end Scan

/-! ## Steps from token to token -/

/-- Whether what is known between two tokens stands behind the start of the text, but for the
token of the stream itself. -/
structure Lexing.KnowsBehind (state : Lexing) : Prop where
  tokens : ∀ token ∈ state.reversed, token.kind = .streamStart ∨ token.start.IsBehindStart
  candidates : ∀ candidate ∈ state.candidate :: state.outerCandidates,
    ∀ found ∈ candidate, found.mark.IsBehindStart

/-- Whether what is ahead stands behind the start of the text, too. -/
structure Lexing.IsBehindStart (state : Lexing) : Prop extends state.KnowsBehind where
  text : state.text.IsBehindStart

theorem Lexing.KnowsBehind.setText {state : Lexing} (hstate : state.KnowsBehind)
    (text : Marked) : KnowsBehind { state with text } :=
  ⟨hstate.tokens, hstate.candidates⟩

theorem Lexing.IsBehindStart.setCandidate {state : Lexing} (hstate : state.IsBehindStart)
    {candidate : Option KeyCandidate} (hcandidate : ∀ found ∈ candidate, found.mark.IsBehindStart) :
    IsBehindStart { state with candidate } :=
  ⟨⟨hstate.tokens, List.forall_mem_cons.mpr
    ⟨hcandidate, (List.forall_mem_cons.mp hstate.candidates).2⟩⟩, hstate.text⟩

theorem Lexing.IsBehindStart.dropCandidate {state : Lexing} (hstate : state.IsBehindStart) :
    IsBehindStart { state with candidate := none } :=
  hstate.setCandidate fun _ hnone => absurd hnone (by simp)

namespace Lex

/-- A step behind the start of a text that stays there. -/
abbrev StaysBehind {Value : Type} (step : Lex Value) : Prop :=
  ⦃fun state => ⌜state.IsBehindStart⌝⦄ step
  ⦃post⟨fun _ state => ⌜state.IsBehindStart⌝, fun _ => ⌜True⌝⟩⦄

/-- A step over the text alone keeps all else that is known. -/
theorem spec_scan {Value : Type} {step : Scan Value} {before : Marked → Prop}
    {after : Value → Marked → Prop}
    (hstep : ⦃fun text => ⌜before text⌝⦄ step
      ⦃post⟨fun value text => ⌜after value text⌝, fun _ => ⌜True⌝⟩⦄) (others : Lexing → Prop)
    (hothers : ∀ state text, others state → others { state with text }) :
    ⦃fun state => ⌜others state ∧ before state.text⌝⦄ scan step
    ⦃post⟨fun value state => ⌜others state ∧ after value state.text⌝, fun _ => ⌜True⌝⟩⦄ := by
  refine Reader.triple_of_run fun state hstate => ?_
  have hscan : (scan step).run state = (step.run state.text).map
      fun reached => (reached.1, { state with text := reached.2 }) := by
    show scan step state = _
    unfold scan
    cases step.run state.text <;> rfl
  rw [hscan]
  cases hrun : step.run state.text with
  | ok reached =>
      exact ⟨hothers state reached.2 hstate.1, Reader.ok_of_triple hstep hstate.2 hrun⟩
  | error fault => trivial

@[spec]
theorem staysBehind_scan {Value : Type} {step : Scan Value} (hstep : Scan.StaysBehind step) :
    StaysBehind (scan step) := by
  have hscan := spec_scan hstep Lexing.KnowsBehind fun _ text hknown => hknown.setText text
  mvcgen [hscan]
  · next hstate => exact ⟨hstate.toKnowsBehind, hstate.text⟩
  · exact fun hknown htext => ⟨hknown, htext⟩

@[spec]
theorem spec_here :
    ⦃fun state => ⌜state.IsBehindStart⌝⦄ here
    ⦃post⟨fun mark state => ⌜state.IsBehindStart ∧ mark.IsBehindStart⌝, fun _ => ⌜True⌝⟩⦄ := by
  unfold here
  mvcgen
  exact ⟨by assumption, Marked.IsBehindStart.here (Lexing.IsBehindStart.text ‹_›)⟩

@[spec]
theorem staysBehind_inFlow : StaysBehind inFlow := by
  unfold inFlow
  mvcgen

@[spec]
theorem spec_fail {Value : Type} (activity : Option Activity) (problem : Problem)
    {post : PostCond Value (.arg Lexing (.except Fault .pure))} :
    ⦃fun state => post.2.1 (Fault.of problem state.text.here activity)⦄
    (fail activity problem : Lex Value) ⦃post⦄ :=
  fun _ hpost => hpost

theorem staysBehind_emit {token : Token} (htoken : token.start.IsBehindStart) :
    StaysBehind (emit token) := by
  unfold emit
  mvcgen
  next hstate _ =>
    exact ⟨⟨List.forall_mem_cons.mpr ⟨.inr htoken, hstate.tokens⟩, hstate.candidates⟩, hstate.text⟩

theorem staysBehind_insertAt (number : Nat) {token : Token}
    (htoken : token.start.IsBehindStart) : StaysBehind (insertAt number token) := by
  unfold insertAt
  mvcgen
  next hstate _ =>
    refine ⟨⟨fun other hother => ?_, hstate.candidates⟩, hstate.text⟩
    rcases List.mem_append.mp hother with hfront | hrest
    · exact hstate.tokens other (List.mem_of_mem_take hfront)
    · rcases List.mem_cons.mp hrest with rfl | hbehind
      · exact .inr htoken
      · exact hstate.tokens other (List.mem_of_mem_drop hbehind)

@[spec]
theorem staysBehind_allowKey (allowed : Bool) : StaysBehind (allowKey allowed) := by
  unfold allowKey
  mvcgen
  next hstate _ => exact ⟨⟨hstate.tokens, hstate.candidates⟩, hstate.text⟩

@[spec]
theorem staysBehind_need (count : Nat) : StaysBehind (need count) := by
  unfold need
  mvcgen

/-! ## Candidates and nesting -/

@[spec]
theorem staysBehind_dropCandidate : StaysBehind dropCandidate := by
  unfold dropCandidate
  mvcgen
  next hstate _ _ _ => exact hstate.dropCandidate

@[spec]
theorem staysBehind_saveCandidate : StaysBehind saveCandidate := by
  unfold saveCandidate
  mvcgen
  next hbefore _ _ _ _ _ _ _ hstate _ =>
    refine hstate.setCandidate fun found hfound => ?_
    obtain rfl := Option.some.inj hfound
    exact hbefore.text.here

@[spec]
theorem staysBehind_dropStale : StaysBehind dropStale := by
  unfold dropStale
  mvcgen
  next state hstate _ _ _ _ =>
    refine ⟨⟨hstate.tokens, fun candidate hcandidate found hfound => ?_⟩, hstate.text⟩
    obtain ⟨other, hother, rfl⟩ := List.mem_map.mp
      (List.map_cons (f := keepFresh _) (l := state.outerCandidates) ▸ hcandidate)
    exact hstate.candidates other hother found (Option.filter_eq_some_iff.mp hfound).1

@[spec]
theorem staysBehind_enterFlow : StaysBehind enterFlow := by
  unfold enterFlow
  mvcgen
  next hstate _ =>
    exact ⟨⟨hstate.tokens, List.forall_mem_cons.mpr
      ⟨fun _ hnone => absurd hnone (by simp), hstate.candidates⟩⟩, hstate.text⟩

@[spec]
theorem staysBehind_leaveFlow : StaysBehind leaveFlow := by
  unfold leaveFlow
  mvcgen
  next state hstate after =>
    cases houter : state.outerCandidates with
    | nil => simpa only [after, houter] using hstate
    | cons candidate outer =>
        have hcandidates := (List.forall_mem_cons.mp hstate.candidates).2
        simp only [after, houter]
        exact ⟨⟨hstate.tokens, houter ▸ hcandidates⟩, hstate.text⟩

theorem staysBehind_emitAt (kind : TokenKind) {mark : Mark} (hmark : mark.IsBehindStart) :
    StaysBehind (emitAt kind mark) :=
  staysBehind_emit hmark

theorem staysBehind_indentTo (column : Nat) (number : Option Nat) (kind : TokenKind)
    {mark : Mark} (hmark : mark.IsBehindStart) :
    StaysBehind (indentTo column number kind mark) := by
  unfold indentTo
  mvcgen [staysBehind_emit, staysBehind_insertAt]
  · next hstate _ _ _ _ _ _ => exact ⟨⟨hstate.tokens, hstate.candidates⟩, hstate.text⟩
  · next hstate _ _ _ _ _ _ _ => exact ⟨⟨hstate.tokens, hstate.candidates⟩, hstate.text⟩

theorem staysBehind_closeBlocks (column : Int) {mark : Mark} (hmark : mark.IsBehindStart)
    (outerIndents : List Int) : StaysBehind (closeBlocks column mark outerIndents) := by
  induction outerIndents with
  | nil =>
      unfold closeBlocks
      mvcgen
      next hstate _ => exact ⟨⟨hstate.tokens, hstate.candidates⟩, hstate.text⟩
  | cons outer outerIndents ih =>
      unfold closeBlocks
      mvcgen [staysBehind_emitAt, ih]
      · next hstate _ _ => exact ⟨⟨hstate.tokens, hstate.candidates⟩, hstate.text⟩
      · next hstate _ => exact ⟨⟨hstate.tokens, hstate.candidates⟩, hstate.text⟩

@[spec]
theorem staysBehind_unindentTo (column : Int) : StaysBehind (unindentTo column) := by
  unfold unindentTo
  mvcgen [staysBehind_closeBlocks]
  exact Marked.IsBehindStart.here (Lexing.IsBehindStart.text ‹_›)

/-! ## Tokens -/

@[spec]
theorem staysBehind_indicator (kind : TokenKind) (length : Nat) :
    StaysBehind (indicator kind length) := by
  unfold indicator
  mvcgen [staysBehind_emit]
  all_goals
    first
    | exact And.left ‹_ ∧ Mark.IsBehindStart _›
    | exact fun _ _ _ => And.right ‹_ ∧ Mark.IsBehindStart _›

@[spec]
theorem staysBehind_endStream : StaysBehind endStream := by
  unfold endStream
  mvcgen [staysBehind_emitAt]
  · next hboth _ =>
    exact ⟨⟨hboth.1.tokens, hboth.1.candidates⟩, hboth.1.text.cells, hboth.2.lineStart⟩
  · exact fun _ _ => Mark.IsBehindStart.lineStart (And.right ‹_ ∧ Mark.IsBehindStart _›)

theorem staysBehind_documentLevel {token : Lex Unit} (htoken : StaysBehind token) :
    StaysBehind (documentLevel token) := by
  unfold documentLevel
  mvcgen [htoken]

@[spec]
theorem staysBehind_openFlow (kind : TokenKind) : StaysBehind (openFlow kind) := by
  unfold openFlow
  mvcgen

@[spec]
theorem staysBehind_closeFlow (kind : TokenKind) : StaysBehind (closeFlow kind) := by
  unfold closeFlow
  mvcgen

@[spec]
theorem staysBehind_flowEntry : StaysBehind flowEntry := by
  unfold flowEntry
  mvcgen

@[spec]
theorem staysBehind_blockEntry : StaysBehind blockEntry := by
  unfold blockEntry
  mvcgen [staysBehind_indentTo]
  · exact And.right ‹_ ∧ Mark.IsBehindStart _›
  · exact And.left ‹_ ∧ Mark.IsBehindStart _›

@[spec]
theorem staysBehind_explicitKey : StaysBehind explicitKey := by
  unfold explicitKey
  mvcgen [staysBehind_indentTo]
  · exact And.right ‹_ ∧ Mark.IsBehindStart _›
  · exact And.left ‹_ ∧ Mark.IsBehindStart _›

@[spec]
theorem staysBehind_valueIndicator : StaysBehind valueIndicator := by
  unfold valueIndicator
  mvcgen [staysBehind_indentTo, staysBehind_insertAt]
  · next hstate _ candidate hcandidate =>
    exact hstate.candidates _ (hcandidate ▸ List.mem_cons_self) candidate rfl
  · next hstate _ candidate hcandidate _ _ _ =>
    exact hstate.candidates _ (hcandidate ▸ List.mem_cons_self) candidate rfl
  · next hstate _ => exact hstate.dropCandidate
  · exact And.right ‹_ ∧ Mark.IsBehindStart _›
  · exact And.left ‹_ ∧ Mark.IsBehindStart _›

theorem staysBehind_keyLike {kind : Scan TokenKind} (hkind : Scan.StaysBehind kind) :
    StaysBehind (keyLike kind) := by
  unfold keyLike
  mvcgen [staysBehind_emit, hkind]
  all_goals
    first
    | exact And.left ‹_ ∧ Mark.IsBehindStart _›
    | exact fun _ _ _ => And.right ‹_ ∧ Mark.IsBehindStart _›

@[spec]
theorem staysBehind_block (literal : Bool) : StaysBehind (block literal) := by
  unfold block
  mvcgen [staysBehind_emit]
  all_goals
    first
    | exact And.left ‹_ ∧ Mark.IsBehindStart _›
    | exact fun _ _ _ => And.right ‹_ ∧ Mark.IsBehindStart _›

@[spec]
theorem staysBehind_plain : StaysBehind plain := by
  unfold plain
  mvcgen [staysBehind_emit]
  all_goals
    first
    | exact And.left ‹_ ∧ Mark.IsBehindStart _›
    | exact fun _ _ _ => And.right ‹_ ∧ Mark.IsBehindStart _›

@[spec]
theorem staysBehind_quoted (single : Bool) : StaysBehind (quoted single) := by
  apply staysBehind_keyLike
  mvcgen

@[spec]
theorem staysBehind_tokenAt (text : Marked) (flow : Bool) (char : Char) :
    StaysBehind (tokenAt text flow char) := by
  unfold tokenAt
  mvcgen [staysBehind_keyLike]

@[spec]
theorem staysBehind_skipToToken (remaining : Nat) : StaysBehind (skipToToken remaining) := by
  induction remaining with
  | zero =>
      unfold skipToToken
      mvcgen
  | succ remaining ih =>
      unfold skipToToken
      mvcgen [ih]

/-- A directive is put down to where it is read. -/
theorem staysBehind_directive : StaysBehind (do emit (← scan scanDirective)) := by
  have hscan := spec_scan Scan.spec_scanDirective Lexing.KnowsBehind
    fun _ text hknown => hknown.setText text
  mvcgen [hscan, -staysBehind_scan, staysBehind_emit]
  · next hstate => exact ⟨hstate.toKnowsBehind, hstate.text⟩
  · next hboth => exact ⟨hboth.1, hboth.2.1⟩
  · exact fun _ _ _ hstart => hstart

/-! ## The comment at the start -/

/-- The first step to a token takes the comment at the start. -/
theorem takesComment_skipToToken (remaining : Nat) :
    ⦃fun state => ⌜state.KnowsBehind ∧ state.text.StartsWithComment⌝⦄
    skipToToken (remaining + 1)
    ⦃post⟨fun _ state => ⌜state.IsBehindStart⌝, fun _ => ⌜True⌝⟩⦄ := by
  have hcomment := fun tabs => spec_scan (Scan.takesComment tabs) Lexing.KnowsBehind
    fun _ text hknown => hknown.setText text
  have hskip := staysBehind_scan (Scan.staysBehind_skip 1)
  unfold skipToToken inFlow
  mvcgen [-staysBehind_scan, hcomment, hskip]
  -- the mark of a byte order is not ahead
  all_goals
    first
    | exact ⟨And.left ‹_ ∧ Marked.IsBehindStart _›, And.right ‹_ ∧ Marked.IsBehindStart _›⟩
    | exact absurd (And.right ‹_ ∧ _ = some '\ufeff'›)
        (by simp [(And.right ‹_ ∧ Marked.StartsWithComment _›).ahead?_eq])

theorem staysBehind_next : StaysBehind next := by
  have hdirective := staysBehind_documentLevel staysBehind_directive
  have hindicator := fun kind => staysBehind_documentLevel (staysBehind_indicator kind 3)
  unfold next
  mvcgen [hdirective, hindicator]
  exact And.left ‹_ ∧ Mark.IsBehindStart _›

/-- The first token is taken behind the comment at the start. -/
theorem takesComment_next :
    ⦃fun state => ⌜state.KnowsBehind ∧ state.text.StartsWithComment⌝⦄ next
    ⦃post⟨fun _ state => ⌜state.IsBehindStart⌝, fun _ => ⌜True⌝⟩⦄ := by
  have hdirective := staysBehind_documentLevel staysBehind_directive
  have hindicator := fun kind => staysBehind_documentLevel (staysBehind_indicator kind 3)
  unfold next
  mvcgen [hdirective, hindicator, takesComment_skipToToken, -staysBehind_skipToToken]
  exact And.left ‹_ ∧ Mark.IsBehindStart _›

/-- Where nothing can be seen of a text, what is wrong with it shows at once. -/
theorem run_next_of_hidden (fault : Fault) :
    next.run (Lexing.start { cells := [], finish := .start } (some fault)) = .error fault :=
  rfl

end Lex

/-! ## The tokens of a text -/

/-- Whether a token stands behind the start of its text, unless it is that of the stream. -/
def Token.IsBehindStart (token : Token) : Prop :=
  token.kind = .streamStart ∨ token.start.IsBehindStart

variable {state : Lexing}

/-- If the first step to a token ends behind the start, all tokens stand behind it. -/
theorem Lexing.KnowsBehind.tokens_run (hknown : state.KnowsBehind)
    (hfirst : ∀ reached, Lex.next.run state = .ok reached → reached.2.IsBehindStart)
    (remaining : Nat) : ∀ token ∈ (state.run remaining).tokens, token.IsBehindStart := by
  induction remaining generalizing state with
  | zero => exact fun token htoken => hknown.tokens token (List.mem_reverse.mp htoken)
  | succ remaining ih =>
      unfold Lexing.run
      split
      · exact fun token htoken => hknown.tokens token (List.mem_reverse.mp htoken)
      · split
        · next hrun =>
          have hnext := hfirst _ hrun
          exact ih hnext.toKnowsBehind fun reached => Reader.ok_of_triple Lex.staysBehind_next hnext
        · exact fun token htoken =>
            hknown.tokens token (List.mem_reverse.mp (List.mem_of_mem_take htoken))

theorem Lexing.knowsBehind_start (text : Marked) (hidden : Option Fault) :
    (Lexing.start text hidden).KnowsBehind :=
  ⟨List.forall_mem_singleton.mpr (.inl rfl),
    List.forall_mem_singleton.mpr fun _ hnone => absurd hnone (by simp [Lexing.start])⟩

/-- The tokens of a text that starts with a comment. -/
theorem tokens_run_of_comment {text : Marked} (htext : text.StartsWithComment)
    (hidden : Option Fault) (remaining : Nat) :
    ∀ token ∈ ((Lexing.start text hidden).run remaining).tokens, token.IsBehindStart := by
  have hknown := Lexing.knowsBehind_start text hidden
  exact hknown.tokens_run
    (fun reached => Reader.ok_of_triple Lex.takesComment_next ⟨hknown, htext⟩) remaining

theorem isBehindStart_markedFrom (breaks : Char → Bool) (width : Char → Nat) (afterReturn : Bool)
    (mark : Mark) (hmark : mark.IsBehindStart) (chars : List Char) :
    (markedFrom breaks width afterReturn mark chars).IsBehindStart := by
  induction chars generalizing afterReturn mark with
  | nil => exact ⟨fun cell hcell => absurd hcell List.not_mem_nil, hmark⟩
  | cons char rest ih =>
      have hcons : ∀ {text : Marked} {cell : Cell}, cell.mark.IsBehindStart → text.IsBehindStart →
          (text.cons cell).IsBehindStart := fun hcell htext =>
        ⟨List.forall_mem_cons.mpr ⟨hcell, htext.cells⟩, htext.finish⟩
      unfold markedFrom
      split
      · -- a line feed behind a carriage return moves no place
        exact ih false _ hmark
      · split
        · exact hcons hmark (ih _ _ (.inl (Nat.succ_ne_zero _)))
        · exact hcons hmark (ih _ _ (.inr (Nat.succ_ne_zero _)))

/-- The `#` at the start of a text. -/
def startOfComment : Cell :=
  { char := '#', mark := .start, isBreak := false }

/-- The tokens of a text that starts with a comment and can be seen up to some byte. -/
theorem tokens_run_of_upTo {cells : List Cell} {finish : Mark}
    (hbehind : Marked.IsBehindStart { cells, finish }) (bytes : Nat) (fault : Fault)
    (remaining : Nat) :
    ∀ token ∈ ((Lexing.start (Marked.upTo { cells := startOfComment :: cells, finish } bytes)
      (some fault)).run remaining).tokens, token.IsBehindStart := by
  by_cases hbytes : bytes = 0
  · -- nothing of the text may be read, and the first step fails
    subst hbytes
    have hnone : Marked.upTo { cells := startOfComment :: cells, finish } 0 =
        { cells := [], finish := .start } := rfl
    rw [hnone]
    refine (Lexing.knowsBehind_start _ _).tokens_run (fun reached hrun => ?_) remaining
    rw [Lex.run_next_of_hidden] at hrun
    cases hrun
  · -- the comment stays in front of what may be read
    let legible := cells.takeWhile fun cell => cell.mark.index < bytes
    have hupTo : Marked.upTo { cells := startOfComment :: cells, finish } bytes =
        { cells := startOfComment :: legible
          finish := markOf finish (cells.drop legible.length) } := by
      have hfirst : decide (startOfComment.mark.index < bytes) = true :=
        decide_eq_true (Nat.pos_of_ne_zero hbytes)
      simp only [Marked.upTo, List.takeWhile_cons, hfirst, if_true, List.length_cons,
        List.drop_succ_cons, legible]
    rw [hupTo]
    refine tokens_run_of_comment (.intro rfl rfl ⟨fun cell hcell => ?_, ?_⟩) _ _
    · exact hbehind.cells cell ((List.takeWhile_subset _) hcell)
    · exact (hbehind.drop legible.length).here

/-- A token of a text that starts with a comment stands behind the start of the text. -/
theorem isBehindStart_of_mem_tokens {text : String} {rest : List Char}
    (htext : text.toList = '#' :: rest) :
    ∀ token ∈ (TokenList.ofText text).tokens, token.IsBehindStart := by
  have hbehind := isBehindStart_markedFrom isBreak11 Char.utf8Size false
    (Mark.start.next 1) (.inr (by decide)) rest
  have hmarked : marked isBreak11 Char.utf8Size text =
      (markedFrom isBreak11 Char.utf8Size false (Mark.start.next 1) rest).cons startOfComment := by
    rw [marked, htext]
    rfl
  unfold TokenList.ofText
  rw [hmarked]
  generalize markedFrom isBreak11 Char.utf8Size false (Mark.start.next 1) rest = behind at hbehind
  cases illegible? text with
  | none => exact tokens_run_of_comment (.intro rfl rfl hbehind) none _
  | some found => exact tokens_run_of_upTo hbehind found.piece found.fault _

end RamlCheck.Yaml
