import RamlCheck.Proofs.Yaml.TokenPlace
import RamlCheck.Yaml.Event

/-!
# Where events stand behind a comment

An event has the place of the token that brings it about, so that in a text which starts with
a comment the events that have content stand behind the start (`isPlaced_of_mem_events`).  An
event without any may stand anywhere: it is a missing node, or the end of something.

## Strategy

Tokens are only taken from the front, so that all that are left are still in their places
(`AllBehind`).  The first token of a node need not be one of content, but then the node has
no properties and no content is next (`Parse.IsAt`), and there is no event to give.
-/

namespace RamlCheck.Yaml

open Std.Do

set_option mvcgen.warning false

/-- Whether an event can give rise to a complaint: a mapping, or a scalar that is not merely
missing. -/
def EventKind.HasContent : EventKind → Prop
  | .mappingStart _ _ => True
  | .scalar _ tag text _ => tag.isSome = true ∨ text ≠ []
  | _ => False

/-- Whether an event stands behind the start of its text, if it has content. -/
def Event.IsPlaced (event : Event) : Prop :=
  event.kind.HasContent → event.mark.IsBehindStart

/-- Whether all of some tokens stand behind the start of their text. -/
def AllBehind (tokens : List Token) : Prop :=
  ∀ token ∈ tokens, token.IsBehindStart

namespace Parse

/-- A step that takes tokens from the front at most. -/
abbrev StaysBehind {Value : Type} (step : Parse Value) : Prop :=
  ⦃fun state => ⌜AllBehind state.tokens⌝⦄ step
  ⦃post⟨fun _ state => ⌜AllBehind state.tokens⌝, fun _ => ⌜True⌝⟩⦄

/-- A step to an event that is in its place. -/
abbrev Finds (step : Parse Event) : Prop :=
  ⦃fun state => ⌜AllBehind state.tokens⌝⦄ step
  ⦃post⟨fun event state => ⌜AllBehind state.tokens ∧ event.IsPlaced⌝, fun _ => ⌜True⌝⟩⦄

@[spec]
theorem staysBehind_peek : StaysBehind peek := by
  unfold peek
  mvcgen

@[spec]
theorem staysBehind_skip : StaysBehind skip := by
  unfold skip
  mvcgen
  next htokens _ => exact fun token htoken => htokens token (List.mem_of_mem_drop htoken)

@[spec]
theorem staysBehind_expect (expected : Expected) : StaysBehind (expect expected) := by
  unfold expect
  mvcgen

@[spec]
theorem staysBehind_push (expected : Expected) : StaysBehind (push expected) := by
  unfold push
  mvcgen

@[spec]
theorem staysBehind_pop : StaysBehind pop := by
  unfold pop
  mvcgen
  next state htokens after =>
    cases houter : state.outer with
    | nil => simpa only [after, houter] using htokens
    | cons expected outer => simpa only [after, houter] using htokens

@[spec]
theorem spec_fail {Value : Type} (activity : Option Activity) (problem : Problem) (mark : Mark)
    {post : PostCond Value (.arg Parsing (.except Fault .pure))} :
    ⦃fun _ => post.2.1 (Fault.of problem mark activity)⦄
    (fail activity problem mark : Parse Value) ⦃post⦄ :=
  fun _ hpost => hpost

/-! ## Nodes -/

/-- Whether a token begins or ends the text. -/
def IsEdge (kind : TokenKind) : Prop :=
  kind = .streamStart ∨ kind = .streamEnd

/-- A place is behind the start, or no content is next and something is known to be missing. -/
structure IsAt (mark : Mark) (isMissing : Prop) (state : Parsing) : Prop where
  tokens : AllBehind state.tokens
  place : mark.IsBehindStart ∨ isMissing ∧ ∀ token ∈ state.tokens.head?, IsEdge token.kind

variable {mark : Mark} {isMissing : Prop}

theorem IsAt.mono {state : Parsing} (hat : IsAt mark isMissing state) {other : Prop}
    (hother : isMissing → other) : IsAt mark other state where
  tokens := hat.tokens
  place := hat.place.imp_right (And.imp_left hother)

theorem IsAt.not_missing {state : Parsing} (hat : IsAt mark isMissing state)
    (hpresent : ¬isMissing) : mark.IsBehindStart :=
  hat.place.resolve_right fun hplace => hpresent hplace.1

theorem isAt_of_isBehindStart (hmark : mark.IsBehindStart) {state : Parsing}
    (htokens : AllBehind state.tokens) : IsAt mark isMissing state :=
  ⟨htokens, .inl hmark⟩

/-- The place of the next token is one where this token can be. -/
theorem spec_peek_first :
    ⦃fun state => ⌜AllBehind state.tokens⌝⦄ peek
    ⦃post⟨fun token state => ⌜IsAt token.start (IsEdge token.kind) state⌝, fun _ => ⌜True⌝⟩⦄ := by
  unfold peek
  mvcgen
  · next htokens token others hahead =>
    refine ⟨htokens, (htokens token (hahead ▸ List.mem_cons_self)).symm.imp_right fun hkind => ?_⟩
    exact ⟨.inl hkind, by simpa [hahead, IsEdge] using Or.inl hkind⟩
  · next htokens hahead _ =>
    exact ⟨htokens, .inr ⟨.inr rfl, by simp [hahead]⟩⟩

theorem spec_peek_at :
    ⦃fun state => ⌜IsAt mark isMissing state⌝⦄ peek
    ⦃post⟨fun token state => ⌜IsAt mark (isMissing ∧ IsEdge token.kind) state⌝,
      fun _ => ⌜True⌝⟩⦄ := by
  unfold peek
  mvcgen
  · next hat token others hahead =>
    refine ⟨hat.tokens, hat.place.imp_right fun hplace => ?_⟩
    exact ⟨⟨hplace.1, hplace.2 token (hahead ▸ rfl)⟩, hplace.2⟩
  · next hat hahead _ =>
    exact ⟨hat.tokens, hat.place.imp_right fun hplace => ⟨⟨hplace.1, .inr rfl⟩, hplace.2⟩⟩

theorem spec_anchorNext :
    ⦃fun state => ⌜IsAt mark isMissing state⌝⦄ anchorNext
    ⦃post⟨fun anchor state => ⌜IsAt mark (isMissing ∧ anchor = none) state⌝,
      fun _ => ⌜True⌝⟩⦄ := by
  have hpeek := @spec_peek_at mark isMissing
  unfold anchorNext
  mvcgen [-staysBehind_peek, hpeek]
  · next hat => exact hat.tokens
  · next hkind _ hat _ _ htokens =>
    exact isAt_of_isBehindStart (hat.not_missing (by simp [hkind, IsEdge])) htokens
  · next hat => exact hat.mono And.left

theorem spec_tagNext :
    ⦃fun state => ⌜IsAt mark isMissing state⌝⦄ tagNext
    ⦃post⟨fun found state => ⌜IsAt mark (isMissing ∧ found.1 = none) state⌝,
      fun _ => ⌜True⌝⟩⦄ := by
  have hpeek := @spec_peek_at mark isMissing
  unfold tagNext
  mvcgen [-staysBehind_peek, hpeek]
  · next hat => exact hat.tokens
  · next hkind _ hat _ _ htokens =>
    exact isAt_of_isBehindStart (hat.not_missing (by simp [hkind, IsEdge])) htokens
  · next hat => exact hat.mono And.left

/-- A node that has properties starts behind the start of the text. -/
theorem spec_properties :
    ⦃fun state => ⌜AllBehind state.tokens⌝⦄ properties
    ⦃post⟨fun found state => ⌜IsAt found.start (found.anchor = none ∧ found.tag = none) state⌝,
      fun _ => ⌜True⌝⟩⦄ := by
  refine Triple.bind _ _ spec_peek_first fun token => ?_
  refine Triple.bind _ _ spec_anchorNext fun anchor => ?_
  cases anchor with
  | some anchor =>
      refine Triple.bind _ _ spec_tagNext fun found => ?_
      mvcgen
      next hat => exact hat.mono fun hmissing => ⟨hmissing.1.2, hmissing.2⟩
  | none =>
      refine Triple.bind _ _ spec_tagNext fun found => ?_
      obtain ⟨tag, tagMark⟩ := found
      cases tag with
      | some tag =>
          refine Triple.bind _ _ spec_anchorNext fun anchor => ?_
          mvcgen
          next hat => exact hat.mono fun hmissing => ⟨hmissing.2, hmissing.1.2⟩
      | none =>
          mvcgen
          next hat => exact hat.mono fun _ => trivial

/-- A tag has a full name only if it is there. -/
theorem spec_resolveTag {found : Properties} {isEdge : Prop} :
    ⦃fun state => ⌜IsAt mark ((found.anchor = none ∧ found.tag = none) ∧ isEdge) state⌝⦄
    resolveTag found
    ⦃post⟨fun tag state => ⌜IsAt mark ((found.anchor = none ∧ tag = none) ∧ isEdge) state⌝,
      fun _ => ⌜True⌝⟩⦄ := by
  unfold resolveTag
  mvcgen
  · next hkind _ hat => simpa only [hkind, and_true] using hat
  · next hkind _ _ hat =>
    exact isAt_of_isBehindStart (hat.not_missing (by simp [hkind])) hat.tokens
  · next hkind _ _ hat _ _ =>
    exact isAt_of_isBehindStart (hat.not_missing (by simp [hkind])) hat.tokens

theorem finds_missing (block : Bool) (found : Properties) (tag : Option Tag) (token : Token) :
    ⦃fun state => ⌜IsAt found.start (found.anchor = none ∧ tag = none) state⌝⦄
    node.missing block found tag token
    ⦃post⟨fun event state => ⌜AllBehind state.tokens ∧ event.IsPlaced⌝, fun _ => ⌜True⌝⟩⦄ := by
  unfold node.missing
  mvcgen
  · next hat => exact hat.tokens
  · next hpresent _ hat _ _ htokens =>
    refine ⟨htokens, fun _ => hat.not_missing ?_⟩
    rintro ⟨hanchor, rfl⟩
    simp [hanchor] at hpresent

@[spec]
theorem finds_node (block indentless : Bool) : Finds (node block indentless) := by
  refine Triple.bind _ _ staysBehind_peek fun first => ?_
  split
  · mvcgen
    next htokens => exact ⟨htokens, fun hcontent => hcontent.elim⟩
  · refine Triple.bind _ _ spec_properties fun found => ?_
    refine Triple.bind _ _ spec_peek_at fun token => ?_
    refine Triple.bind _ _ spec_resolveTag fun tag => ?_
    mvcgen [finds_missing]
    all_goals first
      | exact IsAt.tokens ‹_›
      | exact IsAt.mono ‹_› And.left
      | exact ⟨‹_›, fun _ => IsAt.not_missing ‹_› (by simp [IsEdge, *])⟩

@[simp]
theorem isPlaced_emptyScalar (mark : Mark) : (emptyScalar mark).IsPlaced :=
  fun hcontent => hcontent.elim (fun htag => absurd htag Bool.false_ne_true) (absurd rfl)

@[spec]
theorem finds_nodeUnless (absent : TokenKind → Bool) (block indentless : Bool)
    (after : Expected) (mark : Mark) : Finds (nodeUnless absent block indentless after mark) := by
  unfold nodeUnless
  mvcgen
  exact ⟨by assumption, isPlaced_emptyScalar _⟩

/-! ## Documents -/

@[spec]
theorem staysBehind_directives (remaining : Nat) (seen : Bool) :
    StaysBehind (directives remaining seen) := by
  induction remaining generalizing seen with
  | zero =>
      unfold directives
      mvcgen
  | succ remaining ih =>
      unfold directives
      mvcgen [ih]

@[spec]
theorem staysBehind_allDirectives : StaysBehind allDirectives := by
  unfold allDirectives
  mvcgen

@[spec]
theorem staysBehind_skipDocumentEnds (remaining : Nat) :
    StaysBehind (skipDocumentEnds remaining) := by
  induction remaining with
  | zero =>
      unfold skipDocumentEnds
      mvcgen
  | succ remaining ih =>
      unfold skipDocumentEnds
      mvcgen [ih]

@[spec]
theorem finds_documentStart (implicit : Bool) : Finds (documentStart implicit) := by
  unfold documentStart
  mvcgen
  all_goals exact ⟨by assumption, fun hcontent => hcontent.elim⟩

@[spec]
theorem finds_documentContent : Finds documentContent := by
  unfold documentContent
  mvcgen
  all_goals exact ⟨by assumption, isPlaced_emptyScalar _⟩

@[spec]
theorem finds_documentEnd : Finds documentEnd := by
  unfold documentEnd
  mvcgen
  all_goals exact ⟨by assumption, fun hcontent => hcontent.elim⟩

/-! ## Collections -/

@[spec]
theorem finds_sequenceEnd (mark : Mark) (takes : Bool) :
    Finds (close .sequenceEnd mark takes) := by
  unfold close
  mvcgen
  all_goals exact ⟨by assumption, fun hcontent => hcontent.elim⟩

@[spec]
theorem finds_mappingEnd (mark : Mark) (takes : Bool) : Finds (close .mappingEnd mark takes) := by
  unfold close
  mvcgen
  all_goals exact ⟨by assumption, fun hcontent => hcontent.elim⟩

@[spec]
theorem finds_blockEntry (first : Bool) : Finds (blockEntry first) := by
  unfold blockEntry
  mvcgen

@[spec]
theorem finds_indentlessEntry : Finds indentlessEntry := by
  unfold indentlessEntry
  mvcgen

@[spec]
theorem finds_blockKey (first : Bool) : Finds (blockKey first) := by
  unfold blockKey
  mvcgen

@[spec]
theorem finds_blockValue : Finds blockValue := by
  unfold blockValue
  mvcgen
  all_goals exact ⟨by assumption, isPlaced_emptyScalar _⟩

@[spec]
theorem staysBehind_separator (first : Bool) (activity : Activity) (problem : Problem) :
    StaysBehind (separator first activity problem) := by
  unfold separator
  mvcgen

@[spec]
theorem finds_flowEntry (first : Bool) : Finds (flowEntry first) := by
  unfold flowEntry
  mvcgen [-staysBehind_peek, spec_peek_first]
  all_goals first
    | exact IsAt.tokens ‹_›
    | exact ⟨‹_›, fun _ => IsAt.not_missing ‹_› (by simp [IsEdge, *])⟩

@[spec]
theorem finds_flowPairKey : Finds flowPairKey := by
  unfold flowPairKey
  mvcgen
  all_goals exact ⟨by assumption, isPlaced_emptyScalar _⟩

@[spec]
theorem finds_flowPairValue : Finds flowPairValue := by
  unfold flowPairValue
  mvcgen
  all_goals exact ⟨by assumption, isPlaced_emptyScalar _⟩

@[spec]
theorem finds_flowPairEnd : Finds flowPairEnd := by
  unfold flowPairEnd
  mvcgen
  all_goals exact ⟨by assumption, fun hcontent => hcontent.elim⟩

@[spec]
theorem finds_flowKey (first : Bool) : Finds (flowKey first) := by
  unfold flowKey
  mvcgen

@[spec]
theorem finds_flowValue (absent : Bool) : Finds (flowValue absent) := by
  unfold flowValue
  mvcgen
  all_goals exact ⟨by assumption, isPlaced_emptyScalar _⟩

@[spec]
theorem finds_next : Finds next := by
  unfold next
  mvcgen
  all_goals exact ⟨by assumption, fun hcontent => hcontent.elim⟩

end Parse

theorem isPlaced_of_mem_parsing (remaining : Nat) {state : Parsing}
    (htokens : AllBehind state.tokens) :
    ∀ event ∈ (state.run remaining).events, event.IsPlaced := by
  induction remaining generalizing state with
  | zero => exact fun event hevent => absurd hevent List.not_mem_nil
  | succ remaining ih =>
      unfold Parsing.run
      split
      · exact fun event hevent => absurd hevent List.not_mem_nil
      · next event next hrun =>
        obtain ⟨hnext, hevent⟩ := Reader.ok_of_triple Parse.finds_next htokens hrun
        split
        · exact List.forall_mem_singleton.mpr hevent
        · exact List.forall_mem_cons.mpr ⟨hevent, ih hnext⟩

/-- In a text that starts with a comment, all events with content stand behind the start. -/
theorem isPlaced_of_mem_events {text : String} {rest : List Char}
    (htext : text.toList = '#' :: rest) :
    ∀ event ∈ (EventList.ofText text).events, event.IsPlaced :=
  isPlaced_of_mem_parsing _ (isBehindStart_of_mem_tokens htext)

end RamlCheck.Yaml
