import RamlCheck.Proofs.Outline.TokenPlace
import RamlCheck.Proofs.Outline.Wording

/-!
# Where the scalars of an outline's events stand

An event has the place of the token that brings it about, so that the scalars among the
events of a text begin where their events are (`stands_of_mem_events`).  The exception is the
empty scalar of a missing node, which is nowhere in the text.

## Strategy

Tokens are only taken from the front, so that all that are left are still in their places
(`AllPlaced`), and only `Parse.content` turns a token into a scalar.
-/

namespace RamlCheck.Outline

open Std.Do
open Yaml (Mark Token TokenKind)

set_option mvcgen.warning false

variable {text : String}

/-- Whether the scalars among some tokens stand where they begin. -/
def AllPlaced (text : String) (tokens : List Token) : Prop :=
  ∀ token ∈ tokens, Placed text token.start token.kind

/-- Whether the scalar of an event, if it is one, begins where the event is.  The scalar
that stands for a missing node is empty. -/
def Event.Stands (text : String) (event : Event) : Prop :=
  match event.kind with
  | .scalar _ chars => chars ≠ [] → StartsAt text event.mark chars
  | _ => True

namespace Parse

/-- A step that takes tokens from the front at most. -/
abbrev Keeps (text : String) {Value : Type} (step : Parse Value) : Prop :=
  ⦃fun state => ⌜AllPlaced text state.tokens⌝⦄ step
  ⦃post⟨fun _ state => ⌜AllPlaced text state.tokens⌝, fun _ => ⌜True⌝⟩⦄

/-- A step to an event that stands where it begins. -/
abbrev Finds (text : String) (step : Parse Event) : Prop :=
  ⦃fun state => ⌜AllPlaced text state.tokens⌝⦄ step
  ⦃post⟨fun event state => ⌜AllPlaced text state.tokens ∧ event.Stands text⌝, fun _ => ⌜True⌝⟩⦄

theorem spec_peek :
    ⦃fun state => ⌜AllPlaced text state.tokens⌝⦄ peek
    ⦃post⟨fun token state => ⌜AllPlaced text state.tokens ∧ Placed text token.start token.kind⌝,
      fun _ => ⌜True⌝⟩⦄ := by
  unfold peek
  mvcgen
  · next htokens _ _ hahead =>
    exact ⟨htokens, htokens _ (hahead ▸ List.mem_cons_self)⟩
  · exact ⟨by assumption, placed_of_not_isScalar rfl _⟩

@[spec 2000]
theorem keeps_peek : Keeps text peek := by
  unfold peek
  mvcgen

@[spec 2000]
theorem keeps_skip : Keeps text skip := by
  unfold skip
  mvcgen
  next htokens _ => exact fun token htoken => htokens token (List.mem_of_mem_drop htoken)

@[spec 2000]
theorem keeps_expect (expected : Expected) : Keeps text (expect expected) := by
  unfold expect
  mvcgen

@[spec 2000]
theorem keeps_push (expected : Expected) : Keeps text (push expected) := by
  unfold push
  mvcgen

@[spec 2000]
theorem keeps_pop : Keeps text pop := by
  unfold pop
  mvcgen
  next state htokens after =>
    cases houter : state.outer with
    | nil => simpa only [after, houter] using htokens
    | cons expected outer => simpa only [after, houter] using htokens

@[spec 2000]
theorem spec_fail {Value : Type} (problem : Problem) (mark : Mark)
    {post : PostCond Value (.arg Parsing (.except Fault .pure))} :
    ⦃fun _ => post.2.1 { problem, mark }⦄ (fail problem mark : Parse Value) ⦃post⦄ :=
  fun _ hpost => hpost

@[spec 2000]
theorem keeps_anchorNext : Keeps text anchorNext := by
  unfold anchorNext
  mvcgen

@[spec 2000]
theorem keeps_tagNext (start : Mark) : Keeps text (tagNext start) := by
  unfold tagNext
  mvcgen

@[spec 2000]
theorem keeps_properties : Keeps text properties := by
  unfold properties
  mvcgen

@[simp]
theorem stands_emptyScalar (mark : Mark) : (emptyScalar mark).Stands text :=
  fun hne => absurd rfl hne

/-- A node that is a scalar begins where its token does. -/
@[spec 2000]
theorem finds_content (found : Properties) (block indentless : Bool) :
    Finds text (content found block indentless) := by
  unfold content
  mvcgen [-failsOnOneLine_peek, -keeps_peek, spec_peek]
  all_goals
    first
    | exact And.left ‹_ ∧ Placed _ _ _›
    | exact ⟨by assumption, fun _ => And.right ‹_ ∧ Placed _ _ _› _ _ ‹_›⟩
    | exact ⟨by assumption, by simp [Event.Stands]⟩

@[spec 2000]
theorem finds_node (block indentless : Bool) : Finds text (node block indentless) := by
  unfold node
  mvcgen

@[spec 2000]
theorem finds_nodeUnless (absent : TokenKind → Bool) (block indentless : Bool)
    (after : Expected) (mark : Option Mark) :
    Finds text (nodeUnless absent block indentless after mark) := by
  unfold nodeUnless
  mvcgen
  exact ⟨by assumption, stands_emptyScalar _⟩

@[spec 2000]
theorem keeps_directives (remaining : Nat) (seen : Bool) :
    Keeps text (directives remaining seen) := by
  induction remaining generalizing seen with
  | zero =>
      unfold directives
      mvcgen
  | succ remaining ih =>
      unfold directives
      mvcgen [-failsOnOneLine_directives, ih]

@[spec 2000]
theorem keeps_skipDocumentEnds (remaining : Nat) : Keeps text (skipDocumentEnds remaining) := by
  induction remaining with
  | zero =>
      unfold skipDocumentEnds
      mvcgen
  | succ remaining ih =>
      unfold skipDocumentEnds
      mvcgen [-failsOnOneLine_skipDocumentEnds, ih]

@[spec 2000]
theorem finds_documentStart : Finds text documentStart := by
  unfold documentStart
  mvcgen

@[spec 2000]
theorem finds_documentContent : Finds text documentContent := by
  unfold documentContent
  mvcgen
  all_goals exact ⟨by assumption, stands_emptyScalar _⟩

@[spec 2000]
theorem finds_documentEnd : Finds text documentEnd := by
  unfold documentEnd
  mvcgen

@[spec 2000]
theorem finds_sequenceEnd (mark : Mark) (takes : Bool) :
    Finds text (close .sequenceEnd mark takes) := by
  unfold close
  mvcgen

@[spec 2000]
theorem finds_mappingEnd (mark : Mark) (takes : Bool) :
    Finds text (close .mappingEnd mark takes) := by
  unfold close
  mvcgen

@[spec 2000]
theorem finds_blockEntry (first : Bool) : Finds text (blockEntry first) := by
  unfold blockEntry
  mvcgen

@[spec 2000]
theorem finds_indentlessEntry : Finds text indentlessEntry := by
  unfold indentlessEntry
  mvcgen

@[spec 2000]
theorem finds_blockKey (first : Bool) : Finds text (blockKey first) := by
  unfold blockKey
  mvcgen
  all_goals exact ⟨by assumption, stands_emptyScalar _⟩

@[spec 2000]
theorem finds_blockValue : Finds text blockValue := by
  unfold blockValue
  mvcgen
  all_goals exact ⟨by assumption, stands_emptyScalar _⟩

@[spec 2000]
theorem finds_flowEntry (first : Bool) : Finds text (flowEntry first) := by
  unfold flowEntry separator
  mvcgen

@[spec 2000]
theorem finds_flowPairKey : Finds text flowPairKey := by
  unfold flowPairKey
  mvcgen
  all_goals exact ⟨by assumption, stands_emptyScalar _⟩

@[spec 2000]
theorem finds_flowPairValue : Finds text flowPairValue := by
  unfold flowPairValue
  mvcgen
  all_goals exact ⟨by assumption, stands_emptyScalar _⟩

@[spec 2000]
theorem finds_flowPairEnd : Finds text flowPairEnd := by
  unfold flowPairEnd
  mvcgen

@[spec 2000]
theorem finds_flowKey (first : Bool) : Finds text (flowKey first) := by
  unfold flowKey separator
  mvcgen
  all_goals exact ⟨by assumption, stands_emptyScalar _⟩

@[spec 2000]
theorem finds_flowValue (absent : Bool) : Finds text (flowValue absent) := by
  unfold flowValue
  mvcgen
  all_goals exact ⟨by assumption, stands_emptyScalar _⟩

@[spec 2000]
theorem finds_next : Finds text next := by
  unfold next
  mvcgen

end Parse

theorem stands_of_mem_parsing (remaining : Nat) {state : Parsing}
    (htokens : AllPlaced text state.tokens) :
    ∀ event ∈ (state.run remaining).events, event.Stands text := by
  induction remaining generalizing state with
  | zero => exact fun event hevent => absurd hevent List.not_mem_nil
  | succ remaining ih =>
      unfold Parsing.run
      split
      · exact fun event hevent => absurd hevent List.not_mem_nil
      · next event next hrun =>
        obtain ⟨hnext, hevent⟩ := Reader.ok_of_triple Parse.finds_next htokens hrun
        split
        · exact List.forall_mem_singleton.mpr hevent
        · exact List.forall_mem_cons.mpr ⟨hevent, ih hnext⟩

/-- The scalars among the events of a text stand where they begin. -/
theorem stands_of_mem_events : ∀ event ∈ (EventList.ofText text).events, event.Stands text :=
  stands_of_mem_parsing _ placed_of_mem_tokens

end RamlCheck.Outline
