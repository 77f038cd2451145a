import RamlCheck.Proofs.Outline.ScalarPlace

/-!
# Where the tokens of a text stand

Each scalar among the tokens of a text has been put down to a place of the text where it
begins (`placed_of_mem_tokens`).

## Strategy

A token is taken where no blank is ahead, so that its first character is known (`Faces`).
For a scalar in quotes that is its opening quote; a plain scalar or a block is read from
there.  Leaving indentations comes in between, and takes nothing from the text
(`KeepsSettled`).
-/

namespace RamlCheck.Outline

open Std.Do
open Yaml (Mark Marked Token TokenKind Cell)

set_option mvcgen.warning false

variable {text : String}

namespace Lex

@[spec 2000]
theorem keeps_closePair (mark : Mark) : Keeps text (closePair mark) := by
  unfold closePair
  mvcgen

@[spec 2000]
theorem keeps_endStream : Keeps text endStream := by
  unfold endStream
  mvcgen

@[spec 2000]
theorem keeps_closeAll : Keeps text closeAll := by
  unfold closeAll
  mvcgen

@[spec 2000]
theorem keeps_directive : Keeps text directive := by
  unfold directive
  mvcgen
  · exact And.left ‹_ ∧ isScalar _ = false›
  · exact fun _ _ hkind => hkind

@[spec 2000]
theorem keeps_documentStart : Keeps text documentStart := by
  unfold documentStart
  mvcgen
  exact fun _ _ => rfl

@[spec 2000]
theorem keeps_documentEnd : Keeps text documentEnd := by
  unfold documentEnd
  mvcgen

@[spec 2000]
theorem keeps_openFlow (kind : TokenKind) (hkind : isScalar kind = false) :
    Keeps text (openFlow kind) := by
  unfold openFlow
  mvcgen
  all_goals exact fun _ _ => hkind

@[spec 2000]
theorem keeps_closeFlow (kind : TokenKind) (hkind : isScalar kind = false) :
    Keeps text (closeFlow kind) := by
  unfold closeFlow
  mvcgen

@[spec 2000]
theorem keeps_flowEntry : Keeps text flowEntry := by
  unfold flowEntry
  mvcgen
  exact fun _ _ => rfl

@[spec 2000]
theorem keeps_propertyAtLineStart? : Keeps text propertyAtLineStart? := by
  unfold propertyAtLineStart?
  mvcgen

@[spec 2000]
theorem keeps_blockEntry : Keeps text blockEntry := by
  unfold blockEntry
  mvcgen

@[spec 2000]
theorem keeps_skipBehindKey (remaining : Nat) (found : Bool) :
    Keeps text (skipBehindKey remaining found) := by
  induction remaining generalizing found with
  | zero =>
      unfold skipBehindKey
      mvcgen
  | succ remaining ih =>
      unfold skipBehindKey
      mvcgen [-failsOnOneLine_skipBehindKey, ih]

@[spec 2000]
theorem keeps_explicitKey : Keeps text explicitKey := by
  unfold explicitKey
  mvcgen

@[spec 2000]
theorem keeps_skipBehindColon : Keeps text skipBehindColon := by
  unfold skipBehindColon
  mvcgen

@[spec 2000]
theorem keeps_valueIndicator : Keeps text valueIndicator := by
  unfold valueIndicator
  mvcgen

@[spec 2000]
theorem keeps_aliased : Keeps text (keyLike (do return .aliased (← scanName))) := by
  unfold keyLike
  mvcgen

@[spec 2000]
theorem keeps_anchor : Keeps text (keyLike (do return .anchor (← scanName))) := by
  unfold keyLike
  mvcgen

@[spec 2000]
theorem keeps_tag : Keeps text (keyLike (do return .tag (← scanTag))) := by
  unfold keyLike
  mvcgen

/-- Whether a token begins ahead, with some character. -/
def Faces (char : Char) (ahead : List Cell) : Prop :=
  ∃ cell others, ahead = cell :: others ∧ cell.char = char ∧ cell.isSpace = false

theorem Faces.atWord {ahead : Marked} (hfaces : ∃ char, Faces char ahead.cells) :
    AtWord ahead.here ahead.cells := by
  obtain ⟨char, cell, others, hahead, -, hspace⟩ := hfaces
  exact ⟨cell, others, hahead, by rw [Marked.here, hahead]; rfl, hspace⟩

theorem placed_of_startsAt {mark : Mark} {scalar : List Char} {isPlain : Bool}
    (hstarts : StartsAt text mark scalar) : Placed text mark (.scalar scalar isPlain) := by
  intro other otherPlain hother
  rwa [← (TokenKind.scalar.inj hother).1]

/-- Anything in quotes begins where the opening quote stands. -/
theorem startsAt_of_quote {ahead : Marked} {tokens : List Token} {quote : Char}
    (hboth : Stands text ahead.cells tokens ∧ Faces quote ahead.cells)
    (hquote : quote = '\'' ∨ quote = '"') (scalar : List Char) :
    StartsAt text ahead.here scalar := by
  obtain ⟨hstands, cell, others, hahead, hchar, hspace⟩ := hboth
  simp only [Cell.isSpace, Bool.or_eq_false_iff] at hspace
  have hhere : ahead.here = cell.mark := by rw [Marked.here, hahead]; rfl
  rw [hhere]
  refine startsAt_of_cells 1 (hahead ▸ hstands.suffix) (by simpa using hspace.1.1)
    fun behind _ => ?_
  simp only [List.take_succ_cons, List.take_zero, List.map_cons, List.map_nil, hchar]
  exact .quoted hquote behind

/-- A plain scalar is put down where it begins. -/
@[spec 2000]
theorem keeps_plain :
    ⦃fun state => ⌜Stands text state.text.cells state.reversed ∧
      ∃ char, Faces char state.text.cells⌝⦄
    keyLike (do return .scalar (← scanPlain) true)
    ⦃post⟨fun _ state => ⌜Stands text state.text.cells state.reversed⌝, fun _ => ⌜True⌝⟩⦄ := by
  unfold keyLike saveCandidate
  mvcgen [-failsOnOneLine_scanPlain, spec_scanPlain, -keeps_emit, keeps_emit_of_placed]
  -- the scalar is read where its place has been taken
  all_goals try exact Marked.here (Lexing.text ‹Lexing›)
  all_goals
    first
    | exact And.left ‹_ ∧ StartsAt _ _ _›
    | exact placed_of_startsAt (And.right ‹_ ∧ StartsAt _ _ _›)
    | exact ⟨And.left ‹_ ∧ ∃ _, Faces _ _›, Faces.atWord (And.right ‹_ ∧ ∃ _, Faces _ _›)⟩

/-- A scalar in quotes is put down where its opening quote stands. -/
@[spec 2000]
theorem keeps_quoted (single : Bool) :
    ⦃fun state => ⌜Stands text state.text.cells state.reversed ∧
      ∃ quote, (quote = '\'' ∨ quote = '"') ∧ Faces quote state.text.cells⌝⦄
    quoted single
    ⦃post⟨fun _ state => ⌜Stands text state.text.cells state.reversed⌝, fun _ => ⌜True⌝⟩⦄ := by
  unfold quoted saveCandidate
  mvcgen [-keeps_emit, keeps_emit_of_placed]
  all_goals obtain ⟨hstands, quote, hquote, hfaces⟩ := ‹_ ∧ ∃ _, _ ∧ Faces _ _›
  all_goals
    first
    | exact hstands
    | exact placed_of_startsAt (startsAt_of_quote ⟨hstands, hfaces⟩ hquote _)

/-- A block scalar is put down where its first line begins. -/
@[spec 2000]
theorem keeps_block (literal : Bool) :
    ⦃fun state => ⌜Stands text state.text.cells state.reversed ∧
      ∃ char, Faces char state.text.cells⌝⦄
    block literal
    ⦃post⟨fun _ state => ⌜Stands text state.text.cells state.reversed⌝, fun _ => ⌜True⌝⟩⦄ := by
  unfold block saveCandidate
  mvcgen [-failsOnOneLine_scanBlock, spec_scanBlock, -keeps_emit, keeps_emit_of_placed]
  all_goals
    first
    | exact fun _ _ hstarts => placed_of_startsAt hstarts
    | exact And.left ‹_ ∧ StartsAt _ _ _›
    | exact ⟨And.left ‹_ ∧ ∃ _, Faces _ _›, _, Faces.atWord (And.right ‹_ ∧ ∃ _, Faces _ _›)⟩

/-- Wherever a token begins, the scalars that are put down stand where they begin. -/
theorem keeps_tokenAt (char : Char) :
    ⦃fun state => ⌜Stands text state.text.cells state.reversed ∧ Faces char state.text.cells⌝⦄
    tokenAt char
    ⦃post⟨fun _ state => ⌜Stands text state.text.cells state.reversed⌝, fun _ => ⌜True⌝⟩⦄ := by
  unfold tokenAt
  mvcgen
  all_goals
    first
    | exact And.left ‹_ ∧ Faces _ _›
    | exact ⟨And.left ‹_ ∧ Faces _ _›, char, And.right ‹_ ∧ Faces _ _›⟩
    | exact ⟨And.left ‹_ ∧ Faces _ _›, char, .inl ‹_›, And.right ‹_ ∧ Faces _ _›⟩
    | exact ⟨And.left ‹_ ∧ Faces _ _›, char, .inr ‹_›, And.right ‹_ ∧ Faces _ _›⟩

/-- A step that leaves the text alone and keeps to it. -/
abbrev KeepsSettled (text : String) (step : Lex Unit) : Prop :=
  ⦃fun state => ⌜Stands text state.text.cells state.reversed ∧ Settled state.text.cells⌝⦄ step
  ⦃post⟨fun _ state => ⌜Stands text state.text.cells state.reversed ∧ Settled state.text.cells⌝,
    fun _ => ⌜True⌝⟩⦄

theorem keepsSettled_dropStale : KeepsSettled text dropStale := by
  unfold dropStale
  mvcgen

theorem keepsSettled_emit (kind : TokenKind) (mark : Mark) (hkind : isScalar kind = false) :
    KeepsSettled text (emit kind mark) := by
  unfold emit
  mvcgen
  next hboth _ =>
    obtain ⟨hstands, hsettled⟩ := hboth
    exact ⟨⟨hstands.suffix, List.forall_mem_cons.mpr ⟨placed_of_not_isScalar hkind mark,
      hstands.placed⟩⟩, hsettled⟩

theorem keepsSettled_leaveIndents (column : Int) (mark : Mark) (indents : List Indent) :
    KeepsSettled text (leaveIndents column mark indents) := by
  induction indents with
  | nil =>
      unfold leaveIndents
      mvcgen
  | cons indent indents ih =>
      unfold leaveIndents
      mvcgen [-failsOnOneLine_leaveIndents, -keeps_leaveIndents, -keeps_emit, keepsSettled_emit, ih]

theorem keepsSettled_unindentTo (column : Int) : KeepsSettled text (unindentTo column) := by
  unfold unindentTo
  mvcgen [-failsOnOneLine_leaveIndents, -keeps_leaveIndents, keepsSettled_leaveIndents]

theorem Settled.faces {ahead : Marked} (hsettled : Settled ahead.cells) {char : Char}
    (hchar : ahead.ahead? 0 = some char) : Faces char ahead.cells := by
  cases hahead : ahead.cells with
  | nil => simp [Marked.ahead?, hahead] at hchar
  | cons cell others =>
      refine ⟨cell, others, rfl, ?_, hsettled cell (by simp [hahead])⟩
      simpa [Marked.ahead?, hahead] using hchar

/-- Taking a token keeps to the text, and a scalar is put down where it begins. -/
@[spec 2000]
theorem keeps_next : Keeps text next := by
  unfold next
  mvcgen [-failsOnOneLine_skipToToken, -keeps_skipToToken, settled_skipToToken,
    -failsOnOneLine_dropStale, -keeps_dropStale, keepsSettled_dropStale,
    -failsOnOneLine_unindentTo, -keeps_unindentTo, keepsSettled_unindentTo,
    -failsOnOneLine_tokenAt, keeps_tokenAt]
  -- where blanks have been taken, the next character begins a token
  all_goals
    first
    | exact ⟨by assumption, Nat.lt_succ_self _⟩
    | exact And.left ‹_ ∧ Settled _›
    | exact ⟨And.left ‹_ ∧ Settled _›, Settled.faces (And.right ‹_ ∧ Settled _›) (by assumption)⟩

end Lex

theorem placed_of_mem_run (remaining : Nat) {state : Lexing}
    (hstands : Stands text state.text.cells state.reversed) :
    ∀ token ∈ (state.run remaining).tokens, Placed text token.start token.kind := by
  have hboth : Lex.Keeps text (do Lex.next; Lex.dropStale) := by
    mvcgen
  induction remaining generalizing state with
  | zero => exact fun token htoken => hstands.placed token (List.mem_reverse.mp htoken)
  | succ remaining ih =>
      unfold Lexing.run
      split
      · exact fun token htoken => hstands.placed token (List.mem_reverse.mp htoken)
      · split
        · next hrun => exact ih (Reader.ok_of_triple hboth hstands hrun)
        · exact fun token htoken =>
            hstands.placed token (List.mem_reverse.mp (List.mem_of_mem_take htoken))

/-- The scalars among the tokens of a text stand where they begin. -/
theorem placed_of_mem_tokens :
    ∀ token ∈ (TokenList.ofText text).tokens, Placed text token.start token.kind :=
  placed_of_mem_run _
    { suffix := List.suffix_refl _
      placed := List.forall_mem_singleton.mpr (placed_of_not_isScalar rfl _) }

end RamlCheck.Outline
