import RamlCheck.Outline.Event
import RamlCheck.Proofs.Nesting
import RamlCheck.Proofs.Reader

/-!
# The events of an outline nest

The events of a text are those of a whole tree, unless the text has a fault or holds no node at
all, and an alias is met only behind an anchor (`isNode_events`).

## Strategy

What is expected is a stack of roles, and each step is a turn of it (`Parse.leads_next`).  That
the steps come to an end is measured (`Parsing.left`): each step takes a token, or brings the
reader closer to one that does.
-/

namespace RamlCheck.Outline

open Nesting
open Reader (Leads)
open Yaml (Mark Token TokenKind)

/-! ## What is expected -/

/-- The part of a tree that an event is. -/
def Event.part? (event : Event) : Option Part :=
  match event.kind with
  | .scalar _ _ | .aliased => some .leaf
  | .sequenceStart _ => some .sequenceStart
  | .sequenceEnd => some .sequenceEnd
  | .mappingStart _ => some .mappingStart
  | .mappingEnd => some .mappingEnd
  | .streamStart | .streamEnd | .documentStart | .documentEnd => none

/-- Whether an event has an anchor. -/
def Event.isAnchored (event : Event) : Bool :=
  match event.kind with
  | .scalar properties _ | .sequenceStart properties | .mappingStart properties =>
      properties.anchored
  | _ => false

/-- A key and a value that are both left out come in two steps without a token of their own, so
a key has to weigh less than a value, and still more than a value that comes next. -/
instance : Expects Expected where
  role?
    | .documentContent | .blockNode => some .node
    | .firstBlockEntry | .blockEntry | .indentlessEntry | .firstFlowEntry | .flowEntry =>
        some .item
    | .firstBlockKey | .blockKey | .firstFlowKey | .flowKey => some .key
    | .blockValue | .flowValue | .flowEmptyValue => some .value
    | .flowPairKey => some .pairKey
    | .flowPairValue => some .pairValue
    | .flowPairEnd => some .pairEnd
    | .streamStart | .document | .documentEnd | .nothing => none
  finish := .documentEnd
  isFirst
    | .firstBlockEntry | .firstBlockKey | .firstFlowEntry | .firstFlowKey => true
    | _ => false
  weight
    | .firstBlockEntry | .firstBlockKey | .firstFlowEntry | .firstFlowKey => 4
    | .blockValue | .flowPairKey => 3
    | .blockKey | .flowPairValue => 2
    | .documentContent | .blockNode | .indentlessEntry | .flowPairEnd | .flowValue
    | .flowEmptyValue => 1
    | .streamStart | .document | .documentEnd | .blockEntry | .flowEntry | .flowKey
    | .nothing => 0
  weight_first expected hfirst := by cases expected <;> simp_all
  weight_node expected hnode := by cases expected <;> simp_all
  weight_finish := rfl

namespace Parsing

/-- The token that is next. -/
def ahead (state : Parsing) : Token :=
  state.tokens.head?.getD { kind := .streamEnd, start := .start, finish := .start }

/-- What is left to do.  A value that is expected comes with the next token if its indicator is
there. -/
def left (state : Parsing) : Left Expected where
  tokens := state.tokens.length
  expected := state.expected
  outer := state.outer
  soon := state.expected = .blockValue ∧ state.ahead.kind = .value

theorem length_drop_lt {state : Parsing} (hahead : state.ahead.kind ≠ .streamEnd) :
    (state.tokens.drop 1).length < state.tokens.length := by
  cases htokens : state.tokens with
  | nil => simp [ahead, htokens] at hahead
  | cons token rest => exact Nat.lt_succ_self _

end Parsing

namespace Parse

variable {state : Parsing}

/-! ## Single steps -/

theorem leads_peek {post : Token → Parsing → Prop} (hpost : post state.ahead state) :
    Leads peek state post := by
  unfold peek
  refine .bind (.get ?_)
  unfold Parsing.ahead at hpost
  split
  · next token rest htokens =>
    rw [htokens] at hpost
    exact .pure hpost
  · next htokens =>
    rw [htokens] at hpost
    split
    · exact .throw _
    · exact .pure hpost

theorem leads_skip {post : Unit → Parsing → Prop}
    (hpost : post () { state with tokens := state.tokens.drop 1 }) : Leads skip state post :=
  .modify hpost

theorem leads_expect {expected : Expected} {post : Unit → Parsing → Prop}
    (hpost : post () { state with expected }) : Leads (expect expected) state post :=
  .modify hpost

theorem leads_push {expected : Expected} {post : Unit → Parsing → Prop}
    (hpost : post () { state with outer := expected :: state.outer }) :
    Leads (push expected) state post :=
  .modify hpost

theorem leads_pop {expected : Expected} {outer : List Expected} {post : Unit → Parsing → Prop}
    (houter : state.outer = expected :: outer) (hpost : post () { state with expected, outer }) :
    Leads pop state post := by
  refine .modify ?_
  simpa only [houter] using hpost

/-- What only tokens have been taken from. -/
structure Spares (before next : Parsing) : Prop where
  outer : next.outer = before.outer
  anchors : next.anchors = before.anchors
  tokens : next.tokens.length ≤ before.tokens.length

theorem Spares.refl (state : Parsing) : Spares state state :=
  ⟨rfl, rfl, Nat.le_refl _⟩

theorem Spares.trans {first second third : Parsing} (hfirst : Spares first second)
    (hsecond : Spares second third) : Spares first third where
  outer := hsecond.outer.trans hfirst.outer
  anchors := hsecond.anchors.trans hfirst.anchors
  tokens := hsecond.tokens.trans hfirst.tokens

theorem spares_skip (state : Parsing) (handles : List (List Char)) :
    Spares state { state with tokens := state.tokens.drop 1, handles } :=
  ⟨rfl, rfl, by simp⟩

/-! ## Nodes -/

/-- What comes of a node.  It is an alias only if an anchor is known. -/
structure Meets (outer : List Expected) (bound : Nat) (known : Prop) (event : Event)
    (next : Parsing) : Prop where
  meets : Nesting.Meets outer bound event.part? next.left
  aliased : event.kind = .aliased → known
  anchors : next.anchors ≠ [] → known ∨ event.isAnchored = true

theorem leads_anchorNext :
    Leads anchorNext state fun found next => next.outer = state.outer ∧
      next.tokens.length ≤ state.tokens.length ∧
      (next.anchors ≠ [] → state.anchors ≠ [] ∨ found = true) := by
  refine .bind (leads_peek ?_)
  split
  · exact .bind (leads_skip (.bind (.modify (.pure ⟨rfl, by simp, fun _ => .inr rfl⟩))))
  · exact .pure ⟨rfl, Nat.le_refl _, .inl⟩

theorem leads_tagNext (start : Mark) :
    Leads (tagNext start) state fun _ next => Spares state next := by
  refine .bind (leads_peek ?_)
  split
  · exact .bind (leads_skip (.bind (.get (.ite
      (fun _ => .pure (spares_skip state state.handles)) fun _ => .throw _))))
  · exact .pure (.refl state)

theorem leads_properties :
    Leads properties state fun found next => next.outer = state.outer ∧
      next.tokens.length ≤ state.tokens.length ∧
      (next.anchors ≠ [] → state.anchors ≠ [] ∨ found.anchored = true) := by
  refine .bind (leads_peek (.bind (leads_anchorNext.mono ?_)))
  rintro anchored next ⟨houter, htokens, hanchors⟩
  refine .ite (fun hanchored => .bind ((leads_tagNext _).mono ?_))
    fun hanchored => .bind ((leads_tagNext _).mono ?_)
  · rintro tagged last ⟨houter', hanchors', htokens'⟩
    exact .pure ⟨houter'.trans houter, htokens'.trans htokens, fun _ => .inr rfl⟩
  · rintro tagged between ⟨houter', hanchors', htokens'⟩
    -- an anchor behind a tag is the only one that may come anew
    have hsame : between.anchors ≠ [] → state.anchors ≠ [] := fun hsome =>
      (hanchors (hanchors' ▸ hsome)).resolve_right hanchored
    refine .ite (fun _ => .bind (leads_anchorNext.mono ?_)) fun _ => ?_
    · rintro anchored last ⟨houter'', htokens'', hanchors''⟩
      exact .pure ⟨houter''.trans (houter'.trans houter),
        htokens''.trans (htokens'.trans htokens), fun hsome => (hanchors'' hsome).imp_left hsame⟩
    · exact .pure ⟨houter'.trans houter, htokens'.trans htokens, fun hsome => .inl (hsame hsome)⟩

variable {after : Expected} {outer : List Expected} {known : Prop}

/-- The content of a node is met behind its properties. -/
theorem leads_content (found : Properties) (block indentless : Bool)
    (houter : state.outer = after :: outer)
    (hknown : state.anchors ≠ [] → known ∨ found.anchored = true) :
    Leads (content found block indentless) state
      (Meets state.outer (4 * state.tokens.length + slack indentless) known) := by
  -- a collection has a token of its own, which pays for its end
  have hpos : state.ahead.kind ≠ .streamEnd → 0 < state.tokens.length := fun hahead =>
    Nat.zero_lt_of_lt (state.length_drop_lt hahead)
  have hbound : 4 * state.tokens.length ≤ 4 * state.tokens.length + slack indentless :=
    Nat.le_add_right _ _
  unfold content
  refine .bind (leads_peek ?_)
  dsimp only
  split
  · -- a sequence without a token of its own
    exact .bind (leads_expect (.pure ⟨.opened .sequence rfl rfl (Nat.le_refl _), nofun, hknown⟩))
  · refine .bind (leads_pop houter (.bind (leads_skip (.pure
      ⟨.leaf houter.symm ?_, nofun, hknown⟩))))
    exact (Nat.mul_le_mul_left 4 (by simp [Parsing.left])).trans hbound
  · next hkind =>
    exact .bind (leads_expect (.pure
      ⟨.first .sequence rfl rfl rfl (hpos (by simp [hkind])) hbound, nofun, hknown⟩))
  · next hkind =>
    exact .bind (leads_expect (.pure
      ⟨.first .mapping rfl rfl rfl (hpos (by simp [hkind])) hbound, nofun, hknown⟩))
  · next hkind =>
    exact .bind (leads_expect (.pure
      ⟨.first .sequence rfl rfl rfl (hpos (by simp [hkind])) hbound, nofun, hknown⟩))
  · next hkind =>
    exact .bind (leads_expect (.pure
      ⟨.first .mapping rfl rfl rfl (hpos (by simp [hkind])) hbound, nofun, hknown⟩))
  · exact .ite (fun _ => .throw _) fun _ => .bind (leads_pop houter (.pure
      ⟨.leaf houter.symm hbound, nofun, hknown⟩))

/-- A node is met.  An alias is one only if an anchor has been met before. -/
theorem leads_node (block indentless : Bool) (houter : state.outer = after :: outer) :
    Leads (node block indentless) state
      (Meets state.outer (4 * state.tokens.length + slack indentless) (state.anchors ≠ [])) := by
  unfold node
  refine .bind (leads_peek ?_)
  split
  · refine .bind (leads_pop houter (.bind (leads_skip (.bind (.get (.ite (fun hcontains => ?_)
      fun _ => .throw _))))))
    -- an alias is met only where its anchor is known, so some anchor is
    have hknown : state.anchors ≠ [] := by
      rintro hnone
      simp [hnone] at hcontains
    refine .pure ⟨.leaf houter.symm ?_, fun _ => hknown, .inl⟩
    exact (Nat.mul_le_mul_left 4 (by simp [Parsing.left])).trans (Nat.le_add_right _ _)
  · refine .bind (leads_properties.mono ?_)
    rintro found between ⟨hbetween, htokens, hanchors⟩
    rw [← hbetween]
    refine (leads_content found block indentless (hbetween.trans houter) hanchors).mono ?_
    rintro event next ⟨⟨hturn, hwork⟩, haliased, hknown⟩
    exact ⟨⟨hturn, hwork.trans (by omega)⟩, haliased, hknown⟩

/-! ## Turns -/

/-- What comes of a step where a stack of roles is expected. -/
structure Goes (roles : List Role) (before : Parsing) (event : Event) (next : Parsing) :
    Prop where
  goes : Nesting.Goes roles before.left event.part? next.left
  aliased : event.kind = .aliased → before.anchors ≠ []
  anchors : next.anchors ≠ [] → before.anchors ≠ [] ∨ event.isAnchored = true

/-- Whether only tokens have been taken so far, so that some steps are spared. -/
structure Within (before state : Parsing) (spare : Nat) : Prop where
  within : Nesting.Within before.left state.left spare
  anchors : state.anchors = before.anchors

variable {before : Parsing} {spare : Nat} {role behind : Role} {roles : List Role}

theorem Within.mono {less : Nat} (hwithin : Within before state spare) (hless : less ≤ spare) :
    Within before state less :=
  ⟨hwithin.within.mono hless, hwithin.anchors⟩

/-- A token that is taken spares four steps. -/
theorem Within.skip (hwithin : Within before state spare)
    (hahead : state.ahead.kind ≠ .streamEnd) :
    Within before { state with tokens := state.tokens.drop 1 } (spare + 4) :=
  ⟨hwithin.within.take (state.length_drop_lt hahead) rfl, hwithin.anchors⟩

/-- An empty scalar is a turn, if what is expected behind it weighs less than is spared. -/
theorem goes_emptyScalar_of_weight {expected : Expected} (mark : Mark) (hrole : role ≠ .pairEnd)
    (hbehind : role.behind? = some behind) (hexpected : Expects.role? expected = some behind)
    (hstacks : Stacks state.outer roles) (hwithin : Within before state spare)
    (hspare : ({ state with expected } : Parsing).left.weight < spare) :
    Goes (role :: roles) before (emptyScalar mark) { state with expected } where
  goes := .leaf hrole hbehind hexpected hstacks hwithin.within rfl rfl hspare
  aliased := nofun
  anchors := fun h => .inl (hwithin.anchors ▸ h)

theorem goes_emptyScalar {expected : Expected} (mark : Mark) (hrole : role ≠ .pairEnd)
    (hbehind : role.behind? = some behind) (hexpected : Expects.role? expected = some behind)
    (hstacks : Stacks state.outer roles) (hwithin : Within before state spare)
    (hspare : Expects.weight expected < spare) :
    Goes (role :: roles) before (emptyScalar mark) { state with expected } :=
  goes_emptyScalar_of_weight mark hrole hbehind hexpected hstacks hwithin
    (Nat.lt_of_le_of_lt (Left.weight_le _) hspare)

/-- A node behind which something is expected is a turn. -/
theorem leads_pushed (block indentless : Bool) (hrole : role ≠ .pairEnd)
    (hbehind : role.behind? = some behind) (hafter : Expects.role? after = some behind)
    (hstacks : Stacks state.outer roles) (hwithin : Within before state spare)
    (hspare : Expects.weight after + slack indentless < spare) :
    Leads (push after >>= fun _ => node block indentless) state (Goes (role :: roles) before) := by
  refine .bind (leads_push ((leads_node block indentless rfl).mono ?_))
  rintro event reached ⟨hmeets, haliased, hknown⟩
  rw [hwithin.anchors] at haliased hknown
  refine ⟨hmeets.goes_pushed hrole hbehind hafter hstacks ?_, haliased, hknown⟩
  have hwork : 4 * state.tokens.length + spare + weights state.outer ≤ before.left.work :=
    hwithin.within
  show 4 * state.tokens.length + slack indentless + Expects.weight after + weights state.outer < _
  omega

theorem leads_nodeUnless (absent : TokenKind → Bool) (block indentless : Bool)
    (mark : Option Mark) (hrole : role ≠ .pairEnd) (hbehind : role.behind? = some behind)
    (hafter : Expects.role? after = some behind) (hstacks : Stacks state.outer roles)
    (hwithin : Within before state spare)
    (hspare : Expects.weight after + slack indentless < spare) :
    Leads (nodeUnless absent block indentless after mark) state (Goes (role :: roles) before) := by
  refine .bind (leads_peek (.ite (fun _ => .bind (leads_expect (.pure ?_))) fun _ => ?_))
  · exact goes_emptyScalar _ hrole hbehind hafter hstacks hwithin
      (Nat.lt_of_le_of_lt (Nat.le_add_right _ _) hspare)
  · exact leads_pushed block indentless hrole hbehind hafter hstacks hwithin hspare

/-- The end of a collection is a turn. -/
theorem leads_close {part : Part} {kind : EventKind} (mark : Mark) {takes : Bool}
    (hpart : Event.part? { kind, mark } = some part) (hkind : kind ≠ .aliased)
    (hturn : Turn (role :: roles) part roles) (hstacks : Stacks state.outer roles)
    (hwithin : Within before state spare)
    (hspare : if takes then state.ahead.kind ≠ .streamEnd else 0 < spare) :
    Leads (close kind mark takes) state (Goes (role :: roles) before) := by
  obtain ⟨first, outer, houter⟩ := hstacks.exists_cons
  rw [houter] at hstacks
  refine .bind (leads_pop houter (.ite
    (fun htakes => .bind (leads_skip (.pure ⟨?_, fun h => absurd h hkind,
      fun h => .inl (hwithin.anchors ▸ h)⟩)))
    fun htakes => .pure ⟨?_, fun h => absurd h hkind, fun h => .inl (hwithin.anchors ▸ h)⟩))
  · rw [if_pos htakes] at hspare
    -- the end takes a token of its own
    have hlength := state.length_drop_lt hspare
    rw [hpart]
    refine .of_turn hturn hstacks hwithin.within ?_
    simp only [Parsing.left, houter]
    omega
  · -- the end is implied, and what it costs has been set aside
    rw [if_neg htakes] at hspare
    rw [hpart]
    refine .of_turn hturn hstacks hwithin.within ?_
    simp only [Parsing.left, houter]
    omega

/-! ## Block collections -/

theorem leads_blockEntry (hstacks : Stacks state.outer roles) (hwithin : Within before state 0) :
    Leads (blockEntry false) state (Goes (.item :: roles) before) := by
  refine .bind (leads_peek ?_)
  split
  · next hkind =>
    exact .bind (leads_skip (leads_nodeUnless _ true false none nofun rfl rfl hstacks
      (hwithin.skip (by simp [hkind])) (by decide)))
  · next hkind =>
    exact leads_close _ rfl nofun (.closeSequence roles) hstacks hwithin (by simp [hkind])
  · exact .throw _

theorem leads_indentlessEntry (hstacks : Stacks state.outer roles)
    (hwithin : Within before state 1) :
    Leads indentlessEntry state (Goes (.item :: roles) before) := by
  refine .bind (leads_peek (.ite (fun hkind => ?_) fun hkind => ?_))
  · exact .bind (leads_skip (leads_nodeUnless _ true false none nofun rfl rfl hstacks
      (hwithin.skip (by simp [hkind])) (by decide)))
  · exact leads_close _ rfl nofun (.closeSequence roles) hstacks hwithin Nat.one_pos

theorem leads_blockKey (hstacks : Stacks state.outer roles) (hwithin : Within before state 2) :
    Leads (blockKey false) state (Goes (.key :: roles) before) := by
  have hkey : Role.key ≠ .pairEnd := by simp
  have hend : EventKind.mappingEnd ≠ .aliased := by simp
  refine .bind (leads_peek ?_)
  split
  · next hkind =>
    exact .bind (leads_skip (leads_nodeUnless _ true true none hkey rfl rfl hstacks
      (hwithin.skip (by simp [hkind])) (by decide)))
  · next hkind =>
    -- the indicator of the value is there already
    have hsoon : ({ state with expected := .blockValue } : Parsing).left.soon = true :=
      decide_eq_true ⟨rfl, hkind⟩
    refine .bind (leads_expect (.pure
      (goes_emptyScalar_of_weight _ hkey rfl rfl hstacks hwithin ?_)))
    rw [Left.weight, if_pos hsoon]
    exact Nat.lt_succ_self 1
  · next hkind =>
    exact leads_close _ rfl hend (.closeMapping roles) hstacks hwithin (by simp [hkind])
  · exact .throw _

theorem leads_blockValue (hstacks : Stacks state.outer roles)
    (hwithin : Within before state (if state.ahead.kind = .value then 1 else 3)) :
    Leads blockValue state (Goes (.value :: roles) before) := by
  refine .bind (leads_peek (.ite (fun hkind => ?_) fun hkind => .bind (leads_expect (.pure ?_))))
  · rw [if_pos hkind] at hwithin
    exact .bind (leads_skip (leads_nodeUnless _ true true none nofun rfl rfl hstacks
      (hwithin.skip (by simp [hkind])) (by decide)))
  · rw [if_neg hkind] at hwithin
    exact goes_emptyScalar _ nofun rfl rfl hstacks hwithin (by decide)

/-! ## Flow collections -/

theorem leads_separator (first : Bool) (problem : Problem) (hwithin : Within before state spare) :
    Leads (separator first problem) state fun _ next => next.outer = state.outer ∧
      Within before next (if first then spare else spare + 4) := by
  cases first with
  | true => exact .pure ⟨rfl, hwithin⟩
  | false =>
      refine .bind (leads_peek (.ite (fun hkind => leads_skip ⟨rfl, ?_⟩) fun _ => .throw _))
      exact hwithin.skip (by simp [hkind])

theorem leads_flowEntry (first : Bool) (hstacks : Stacks state.outer roles)
    (hwithin : if first then Within before { state with tokens := state.tokens.drop 1 } 4
      else Within before state 0) :
    Leads (flowEntry first) state (Goes (.item :: roles) before) := by
  unfold flowEntry
  extract_lets entry
  have hentry : ∀ inner : Parsing, Stacks inner.outer roles →
      Within before inner (if first then 4 else 0) →
      Leads (entry ()) inner (Goes (.item :: roles) before) := by
    intro inner hstacks hwithin
    refine .bind (leads_peek (.ite (fun hkind => ?_) fun _ => ?_))
    · exact leads_close _ rfl nofun (.closeSequence roles) hstacks hwithin (by simp [hkind])
    · refine .bind ((leads_separator first _ hwithin).mono ?_)
      rintro - last ⟨hstacks', hwithin⟩
      replace hwithin : Within before last 4 := by cases first <;> exact hwithin
      rw [← hstacks'] at hstacks
      refine .bind (leads_peek ?_)
      split
      · next hkind =>
        -- a single pair has no place of its own on the stack
        have htaken := last.length_drop_lt (by simp [hkind])
        refine .bind (leads_expect (.bind (leads_skip (.pure
          ⟨.of_turn (.openPair roles) (.cons rfl hstacks) hwithin.within ?_, nofun,
            fun h => .inl (hwithin.anchors ▸ h)⟩))))
        show 4 * (last.tokens.drop 1).length + (3 + weights last.outer) <
          4 * last.tokens.length + 4 + weights last.outer
        omega
      · next hkind =>
        exact leads_close _ rfl nofun (.closeSequence roles) hstacks hwithin (by simp [hkind])
      · exact leads_pushed false false nofun rfl rfl hstacks hwithin (by decide)
  cases first with
  | true => exact .bind (leads_skip (hentry _ hstacks hwithin))
  | false => exact hentry _ hstacks hwithin

theorem leads_flowPairKey (hstacks : Stacks state.outer roles) (hwithin : Within before state 3) :
    Leads flowPairKey state (Goes (.pairKey :: roles) before) := by
  refine .bind (leads_peek (.ite (fun hkind => ?_) fun _ => ?_))
  · have hahead : state.ahead.kind ≠ .streamEnd := by
      rintro hend
      simp [hend] at hkind
    refine .bind (leads_skip (.bind (leads_expect (.pure ?_))))
    exact goes_emptyScalar _ nofun rfl rfl hstacks (hwithin.skip hahead) (by decide)
  · exact leads_pushed false false nofun rfl rfl hstacks hwithin (by decide)

theorem leads_flowPairValue (hstacks : Stacks state.outer roles)
    (hwithin : Within before state 2) :
    Leads flowPairValue state (Goes (.pairValue :: roles) before) := by
  refine .bind (leads_peek (.ite (fun hkind => ?_) fun _ => .bind (leads_expect (.pure ?_))))
  · exact .bind (leads_skip (leads_nodeUnless _ false false none nofun rfl rfl hstacks
      (hwithin.skip (by simp [hkind])) (by decide)))
  · exact goes_emptyScalar _ nofun rfl rfl hstacks hwithin (by decide)

theorem leads_flowPairEnd (hstacks : Stacks state.outer roles) (hwithin : Within before state 1) :
    Leads flowPairEnd state (Goes (.pairEnd :: roles) before) := by
  refine .bind (leads_expect (.bind (leads_peek (.pure
    ⟨.of_turn (.closePair roles) (.cons rfl hstacks) hwithin.within ?_, nofun,
      fun h => .inl (hwithin.anchors ▸ h)⟩))))
  show 4 * state.tokens.length + (0 + weights state.outer) <
    4 * state.tokens.length + 1 + weights state.outer
  omega

theorem leads_flowKey (first : Bool) (hstacks : Stacks state.outer roles)
    (hwithin : if first then Within before { state with tokens := state.tokens.drop 1 } 4
      else Within before state 0) :
    Leads (flowKey first) state (Goes (.key :: roles) before) := by
  unfold flowKey
  extract_lets entry
  -- behind the comma, if there is one, further keys go the way of the first
  have hentry : ∀ inner : Parsing, Stacks inner.outer roles →
      Within before inner (if first then 4 else 0) →
      Leads (entry ()) inner (Goes (.key :: roles) before) := by
    intro inner hstacks hwithin
    refine .bind (leads_peek (.ite (fun hkind => ?_) fun _ => ?_))
    · exact leads_close _ rfl nofun (.closeMapping roles) hstacks hwithin (by simp [hkind])
    · refine .bind ((leads_separator first _ hwithin).mono ?_)
      rintro - last ⟨hstacks', hwithin⟩
      replace hwithin : Within before last 4 := by cases first <;> exact hwithin
      rw [← hstacks'] at hstacks
      refine .bind (leads_peek ?_)
      split
      · next hkind =>
        exact .bind (leads_skip (leads_nodeUnless _ false false none nofun rfl rfl hstacks
          (hwithin.skip (by simp [hkind])) (by decide)))
      · exact .bind (leads_expect (.pure (goes_emptyScalar _ nofun rfl rfl hstacks hwithin
          (by decide))))
      · next hkind =>
        exact leads_close _ rfl nofun (.closeMapping roles) hstacks hwithin (by simp [hkind])
      · exact leads_pushed false false nofun rfl rfl hstacks hwithin (by decide)
  cases first with
  | true => exact .bind (leads_skip (hentry _ hstacks hwithin))
  | false => exact hentry _ hstacks hwithin

theorem leads_flowValue (absent : Bool) (hstacks : Stacks state.outer roles)
    (hwithin : Within before state 1) :
    Leads (flowValue absent) state (Goes (.value :: roles) before) := by
  refine .bind (leads_peek (.ite (fun hkind => ?_) fun _ => .bind (leads_expect (.pure ?_))))
  · simp only [Bool.and_eq_true, decide_eq_true_eq] at hkind
    exact .bind (leads_skip (leads_nodeUnless _ false false (some _) nofun rfl rfl hstacks
      (hwithin.skip (by simp [hkind.2])) (by decide)))
  · exact goes_emptyScalar _ nofun rfl rfl hstacks hwithin (by decide)

/-! ## Whole steps -/

theorem leads_blockNode (hstacks : Stacks state.outer roles) (hwithin : Within before state 1) :
    Leads (node true false) state (Goes (.node :: roles) before) := by
  obtain ⟨first, outer, houter⟩ := hstacks.exists_cons
  have hwork : 4 * state.tokens.length + 1 + weights state.outer ≤ before.left.work :=
    hwithin.within
  refine (leads_node true false houter).mono ?_
  rintro event reached ⟨hmeets, haliased, hknown⟩
  rw [hwithin.anchors] at haliased hknown
  refine ⟨hmeets.goes nofun hstacks ?_, haliased, hknown⟩
  show 4 * state.tokens.length + 0 + weights state.outer < _
  omega

theorem leads_documentContent (hstacks : Stacks state.outer roles)
    (hwithin : Within before state 1) :
    Leads documentContent state (Goes (.node :: roles) before) := by
  refine .bind (leads_peek (.ite (fun _ => ?_) fun _ => leads_blockNode hstacks hwithin))
  have hnode : Role.node ≠ .pairEnd := nofun
  obtain ⟨first, outer, houter⟩ := hstacks.exists_cons
  rw [houter] at hstacks
  refine .bind (leads_pop houter (.pure ⟨.of_turn (.leaf hnode roles) hstacks hwithin.within ?_,
    nofun, fun h => .inl (hwithin.anchors ▸ h)⟩))
  simp only [Parsing.left, houter]
  omega

theorem not_soon (hvalue : state.expected ≠ .blockValue) : state.left.soon = false :=
  decide_eq_false fun h => hvalue h.1

theorem within_of_isFirst {expected : Expected} (hexpected : state.expected = expected)
    (hfirst : Expects.isFirst expected = true) (hvalue : expected ≠ .blockValue) :
    Within state { state with tokens := state.tokens.drop 1 } 4 := by
  subst hexpected
  exact ⟨.of_isFirst hfirst (not_soon hvalue) List.length_drop rfl, rfl⟩

theorem within_self {expected : Expected} (hexpected : state.expected = expected)
    (hfirst : Expects.isFirst expected = false) (hvalue : expected ≠ .blockValue) :
    Within state state (Expects.weight expected) := by
  subst hexpected
  have hweight : state.left.weight = Expects.weight state.expected :=
    state.left.weight_of_not_soon (not_soon hvalue)
  exact ⟨hweight ▸ .refl hfirst, rfl⟩

theorem within_blockValue (hexpected : state.expected = .blockValue) :
    Within state state (if state.ahead.kind = .value then 1 else 3) := by
  have hweight : state.left.weight = if state.ahead.kind = .value then 1 else 3 := by
    rw [Left.weight, Parsing.left, hexpected]
    simp [Expects.weight]
  have hfirst : Expects.isFirst state.left.expected = false := congrArg Expects.isFirst hexpected
  exact ⟨hweight ▸ .refl hfirst, rfl⟩

/-- Where a stack of roles is expected, each step is a turn of it. -/
theorem leads_next (hstacks : Stacks (state.expected :: state.outer) (role :: roles)) :
    Leads next state (Goes (role :: roles) state) := by
  obtain ⟨hrole, houter⟩ := hstacks.of_cons
  refine .bind (.get ?_)
  -- each role is expected in a few ways, and each of these has its step
  cases hexpected : state.expected <;> rw [hexpected] at hrole <;> cases hrole
  case documentContent.refl =>
    exact leads_documentContent houter (within_self hexpected rfl nofun)
  case blockNode.refl => exact leads_blockNode houter (within_self hexpected rfl nofun)
  case firstBlockEntry.refl =>
    have hwithin := (within_of_isFirst hexpected rfl nofun).mono (Nat.zero_le 4)
    exact .bind (leads_skip (leads_blockEntry houter hwithin))
  case blockEntry.refl => exact leads_blockEntry houter (within_self hexpected rfl nofun)
  case indentlessEntry.refl => exact leads_indentlessEntry houter (within_self hexpected rfl nofun)
  case firstBlockKey.refl =>
    have hwithin := (within_of_isFirst hexpected rfl nofun).mono (by decide : 2 ≤ 4)
    exact .bind (leads_skip (leads_blockKey houter hwithin))
  case blockKey.refl => exact leads_blockKey houter (within_self hexpected rfl nofun)
  case blockValue.refl => exact leads_blockValue houter (within_blockValue hexpected)
  case firstFlowEntry.refl =>
    exact leads_flowEntry true houter (within_of_isFirst hexpected rfl nofun)
  case flowEntry.refl => exact leads_flowEntry false houter (within_self hexpected rfl nofun)
  case flowPairKey.refl => exact leads_flowPairKey houter (within_self hexpected rfl nofun)
  case flowPairValue.refl => exact leads_flowPairValue houter (within_self hexpected rfl nofun)
  case flowPairEnd.refl => exact leads_flowPairEnd houter (within_self hexpected rfl nofun)
  case firstFlowKey.refl => exact leads_flowKey true houter (within_of_isFirst hexpected rfl nofun)
  case flowKey.refl => exact leads_flowKey false houter (within_self hexpected rfl nofun)
  case flowValue.refl => exact leads_flowValue false houter (within_self hexpected rfl nofun)
  case flowEmptyValue.refl => exact leads_flowValue true houter (within_self hexpected rfl nofun)

theorem leads_next_of_documentEnd (hexpected : state.expected = .documentEnd) :
    Leads next state fun event _ => event.kind = .documentEnd := by
  refine .bind (.get ?_)
  rw [hexpected]
  refine .bind (leads_peek (.bind (leads_expect ?_)))
  split
  · exact .throw _
  · exact .throw _
  · exact .pure rfl

/-! ## The start of a document -/

theorem leads_skipDocumentEnds (remaining : Nat) :
    Leads (skipDocumentEnds remaining) state fun _ next => Spares state next := by
  induction remaining generalizing state with
  | zero => exact .pure (.refl state)
  | succ remaining ih =>
      refine .bind (leads_peek (.ite (fun _ => .bind (leads_skip (ih.mono ?_)))
        fun _ => .pure (.refl state)))
      exact fun _ _ => (spares_skip state state.handles).trans

theorem leads_directives (remaining : Nat) (seen : Bool) :
    Leads (directives remaining seen) state fun _ next => Spares state next := by
  induction remaining generalizing state seen with
  | zero => exact .pure (.refl state)
  | succ remaining ih =>
      refine .bind (leads_peek ?_)
      split
      · refine .ite (fun _ => .bind (.throw _)) fun _ => ?_
        exact .bind (.modify (.bind (leads_skip ((ih true).mono fun _ _ =>
          (spares_skip state []).trans))))
      · next handle _ _ =>
        exact .bind (.modify (.bind (leads_skip ((ih seen).mono fun _ _ =>
          (spares_skip state [handle]).trans))))
      · exact .pure (.refl state)

theorem leads_next_of_streamStart (hexpected : state.expected = .streamStart) :
    Leads next state fun event next => event.kind = .streamStart ∧ next.expected = .document ∧
      Spares state next := by
  refine .bind (.get ?_)
  rw [hexpected]
  exact .bind (leads_peek (.bind (leads_expect (.bind (leads_skip (.pure
    ⟨rfl, rfl, rfl, rfl, by simp⟩))))))

/-- A document starts with a node, or the text holds none. -/
theorem leads_next_of_document (hexpected : state.expected = .document) :
    Leads next state fun event next => event.kind = .streamEnd ∨
      event.kind = .documentStart ∧ Expects.role? next.expected = some .node ∧
        Spares { state with outer := .documentEnd :: state.outer } next := by
  refine .bind (.get ?_)
  rw [hexpected]
  refine .bind (.get (.bind ((leads_skipDocumentEnds _).mono ?_)))
  rintro - between ⟨houter, hanchors, htokens⟩
  refine .bind (leads_peek (.bind (leads_push (.ite (fun _ => ?_) fun _ => .ite (fun _ => ?_)
    fun _ => ?_))))
  · exact .bind (leads_expect (.pure (.inl rfl)))
  · refine .bind (.get (.bind ((leads_directives _ false).mono ?_)))
    rintro - last ⟨houter', hanchors', htokens'⟩
    refine .bind (leads_peek (.ite (fun _ => .bind (.throw _)) fun _ => ?_))
    refine .bind (leads_skip (.bind (leads_expect (.pure (.inr ⟨rfl, rfl, ?_⟩)))))
    refine ⟨houter'.trans (by rw [houter]), hanchors'.trans hanchors, ?_⟩
    rw [List.length_drop]
    exact (Nat.sub_le _ _).trans (htokens'.trans htokens)
  · exact .bind (leads_expect (.pure (.inr ⟨rfl, rfl, by rw [houter], hanchors,
      htokens⟩)))

end Parse

/-! ## Whole runs -/

/-- Whether each alias comes behind an anchor, unless one is known. -/
def Guarded (known : Prop) : List Event → Prop
  | [] => True
  | event :: rest =>
      (event.kind = .aliased → known) ∧ Guarded (known ∨ event.isAnchored = true) rest

theorem Guarded.mono {known known' : Prop} {events : List Event} (hknown : known → known')
    (hguarded : Guarded known events) : Guarded known' events := by
  induction events generalizing known known' with
  | nil => trivial
  | cons event rest ih =>
      exact ⟨fun h => hknown (hguarded.1 h), ih (Or.imp_left hknown) hguarded.2⟩

/-- A run without a fault has made its first step, and ends there or goes on without a fault. -/
theorem Parsing.exists_of_run {remaining : Nat} {state : Parsing}
    (hfault : (state.run (remaining + 1)).fault = none) :
    ∃ event next, Parse.next.run state = .ok (event, next) ∧
      if event.kind = .documentEnd ∨ event.kind = .streamEnd then
        (state.run (remaining + 1)).events = [event]
      else (next.run remaining).fault = none ∧
        (state.run (remaining + 1)).events = event :: (next.run remaining).events := by
  rw [Parsing.run] at hfault ⊢
  cases hstep : Parse.next.run state with
  | error fault => simp [hstep] at hfault
  | ok reached =>
      obtain ⟨event, next⟩ := reached
      refine ⟨event, next, rfl, ?_⟩
      simp only [hstep] at hfault ⊢
      split
      · rfl
      · next hkind =>
        rw [if_neg hkind] at hfault
        exact ⟨hfault, rfl⟩

/-- Where a stack of roles is expected, a run without a fault meets one of its words, and an
alias only if an anchor is known. -/
theorem Parsing.spells_run {remaining : Nat} {state : Parsing} {stack : List Role}
    (hstacks : Stacks (state.expected :: state.outer) stack)
    (hwork : state.left.work < remaining) (hfault : (state.run remaining).fault = none) :
    Spells stack ((state.run remaining).events.filterMap Event.part?) ∧
      Guarded (state.anchors ≠ []) (state.run remaining).events := by
  induction remaining generalizing state stack with
  | zero => exact absurd hwork (Nat.not_lt_zero _)
  | succ remaining ih =>
      obtain ⟨event, next, hstep, hrest⟩ := Parsing.exists_of_run hfault
      cases stack with
      | nil =>
          obtain ⟨hexpected, -⟩ := List.cons.inj hstacks.of_nil
          -- a role is turned by a part, so the document has not ended
          have hkind := Parse.leads_next_of_documentEnd hexpected event next hstep
          have hpart : event.part? = none := by simp [Event.part?, hkind]
          rw [if_pos (.inl hkind)] at hrest
          rw [hrest, List.filterMap_cons_none hpart]
          exact ⟨.nil, fun h => by simp [hkind] at h, trivial⟩
      | cons role roles =>
          obtain ⟨⟨⟨met, behind, hpart, hturn, hnext⟩, hless⟩, haliased, hanchors⟩ :=
            Parse.leads_next hstacks event next hstep
          have hkind : ¬(event.kind = .documentEnd ∨ event.kind = .streamEnd) := by
            rintro (hkind | hkind) <;> simp [Event.part?, hkind] at hpart
          rw [if_neg hkind] at hrest
          obtain ⟨hspells, hguarded⟩ := ih hnext (by omega) hrest.1
          rw [hrest.2, List.filterMap_cons_some hpart]
          exact ⟨hturn.spells hspells, haliased, hguarded.mono hanchors⟩

/-- The run of a text without a fault starts with a node, unless there is none. -/
theorem Parsing.isNode_run {remaining : Nat} {state : Parsing}
    (hexpected : state.expected = .document) (houter : state.outer = [])
    (hanchors : state.anchors = []) (hremaining : 4 * state.tokens.length + 2 < remaining)
    (hfault : (state.run remaining).fault = none) :
    ((state.run remaining).events.map Event.kind = [.streamEnd] ∨
      IsNode ((state.run remaining).events.filterMap Event.part?)) ∧
      Guarded False (state.run remaining).events := by
  obtain ⟨remaining, rfl⟩ := Nat.exists_eq_add_one.mpr (Nat.zero_lt_of_lt hremaining)
  obtain ⟨event, next, hstep, hrest⟩ := Parsing.exists_of_run hfault
  rcases Parse.leads_next_of_document hexpected event next hstep with
    hend | ⟨hkind, hnode, houter', hanchors', htokens⟩
  · rw [if_pos (.inr hend)] at hrest
    simp [hrest, hend, Guarded]
  · -- the first event opens the document, and its node is what is left to do
    rw [if_neg (by simp [hkind])] at hrest
    obtain ⟨hfault, hevents⟩ := hrest
    have hpart : event.part? = none := by simp [Event.part?, hkind]
    have hfinish : next.outer = [.documentEnd] := by rw [houter', houter]
    have hwork : next.left.work < remaining := by
      refine Nat.lt_of_le_of_lt (Left.work_le_of_node hnode hfinish) ?_
      dsimp only [Parsing.left] at htokens ⊢
      omega
    obtain ⟨hspells, hguarded⟩ := Parsing.spells_run (.of_node hnode hfinish) hwork hfault
    rw [hevents, List.filterMap_cons_none hpart]
    refine ⟨.inr hspells.isNode, by simp [hkind], hguarded.mono ?_⟩
    simp [hanchors', hanchors]

/-- The events of a text without a fault are those of a tree, unless it holds no node.  An alias
comes only behind an anchor. -/
theorem isNode_events {text : String} (hfault : (EventList.ofText text).fault = none) :
    ((EventList.ofText text).events.map Event.kind = [.streamStart, .streamEnd] ∨
      IsNode ((EventList.ofText text).events.filterMap Event.part?)) ∧
      Guarded False (EventList.ofText text).events := by
  unfold EventList.ofText EventList.ofTokens at hfault ⊢
  generalize TokenList.ofText text = tokens at hfault ⊢
  obtain ⟨event, next, hstep, hrest⟩ := Parsing.exists_of_run hfault
  obtain ⟨hkind, hexpected, houter, hanchors, htokens⟩ :=
    Parse.leads_next_of_streamStart rfl event next hstep
  rw [if_neg (by simp [hkind])] at hrest
  obtain ⟨hfault, hevents⟩ := hrest
  -- the first event opens the stream
  have hpart : event.part? = none := by simp [Event.part?, hkind]
  obtain ⟨hnode, hguarded⟩ := Parsing.isNode_run hexpected houter hanchors
    (by dsimp only at htokens; omega) hfault
  rw [hevents, List.filterMap_cons_none hpart]
  refine ⟨hnode.imp_left fun hkinds => ?_, by simp [hkind], hguarded.mono .inl⟩
  rw [List.map_cons, hkinds, hkind]

end RamlCheck.Outline
