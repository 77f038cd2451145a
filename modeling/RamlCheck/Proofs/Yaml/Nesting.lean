import RamlCheck.Proofs.Nesting
import RamlCheck.Proofs.Reader
import RamlCheck.Yaml.Document

/-!
# The events of a document nest

The events of the first document of a text are those of a whole tree, unless the text has a fault
in front of its end or holds no document at all (`isNode_events`).

## Strategy

As for outlines, what is expected is a stack of roles, each step is a turn of it
(`Parse.leads_next`), and it takes a token or brings the reader closer to one that does.
-/

namespace RamlCheck.Yaml

open Nesting
open Reader (Leads)

/-! ## What is expected -/

/-- The part of a tree that an event is. -/
def Event.part? (event : Event) : Option Part :=
  match event.kind with
  | .scalar .. | .aliased _ => some .leaf
  | .sequenceStart .. => some .sequenceStart
  | .sequenceEnd => some .sequenceEnd
  | .mappingStart .. => some .mappingStart
  | .mappingEnd => some .mappingEnd
  | .streamStart | .streamEnd | .documentStart | .documentEnd => none

instance : Expects Expected where
  role?
    | .documentContent | .blockNode => some .node
    | .firstBlockEntry | .blockEntry | .indentlessEntry | .firstFlowEntry | .flowEntry =>
        some .item
    | .firstBlockKey | .blockKey | .firstFlowKey | .flowKey => some .key
    | .blockValue | .flowValue | .flowEmptyValue => some .value
    | .flowPairKey => some .pairKey
    | .flowPairValue => some .pairValue
    | .flowPairEnd => some .pairEnd
    | .streamStart | .implicitDocument | .documentStart | .documentEnd | .nothing => none
  finish := .documentEnd
  isFirst
    | .firstBlockEntry | .firstBlockKey | .firstFlowEntry | .firstFlowKey => true
    | _ => false
  weight
    | .firstBlockEntry | .firstBlockKey | .firstFlowEntry | .firstFlowKey => 4
    | .flowPairKey => 3
    | .flowPairValue => 2
    | .documentContent | .blockNode | .indentlessEntry | .blockValue | .flowPairEnd | .flowValue
    | .flowEmptyValue => 1
    | .streamStart | .implicitDocument | .documentStart | .documentEnd | .blockEntry | .blockKey
    | .flowEntry | .flowKey | .nothing => 0
  weight_first expected hfirst := by cases expected <;> simp_all
  weight_node expected hnode := by cases expected <;> simp_all
  weight_finish := rfl

namespace Parsing

/-- The token that is next. -/
def ahead (state : Parsing) : Token :=
  state.tokens.head?.getD { kind := .streamEnd, start := .start, finish := .start }

/-- What is left to do. -/
def left (state : Parsing) : Left Expected where
  tokens := state.tokens.length
  expected := state.expected
  outer := state.outer
  soon := false

theorem length_drop_lt {state : Parsing} (hahead : state.ahead.kind ≠ .streamEnd) :
    (state.tokens.drop 1).length < state.tokens.length := by
  cases htokens : state.tokens with
  | nil => simp [ahead, htokens] at hahead
  | cons token rest => exact Nat.lt_succ_self _

end Parsing

namespace Parse

variable {state : Parsing}

/-! ## Single steps -/

theorem leads_peek {post : Token → Parsing → Prop} (hpost : post state.ahead state) :
    Leads peek state post := by
  unfold peek
  refine .bind (.get ?_)
  unfold Parsing.ahead at hpost
  split
  · next token rest htokens =>
    rw [htokens] at hpost
    exact .pure hpost
  · next htokens =>
    rw [htokens] at hpost
    split
    · exact .throw _
    · exact .pure hpost

theorem leads_skip {post : Unit → Parsing → Prop}
    (hpost : post () { state with tokens := state.tokens.drop 1 }) : Leads skip state post :=
  .modify hpost

theorem leads_expect {expected : Expected} {post : Unit → Parsing → Prop}
    (hpost : post () { state with expected }) : Leads (expect expected) state post :=
  .modify hpost

theorem leads_push {expected : Expected} {post : Unit → Parsing → Prop}
    (hpost : post () { state with outer := expected :: state.outer }) :
    Leads (push expected) state post :=
  .modify hpost

theorem leads_pop {expected : Expected} {outer : List Expected} {post : Unit → Parsing → Prop}
    (houter : state.outer = expected :: outer) (hpost : post () { state with expected, outer }) :
    Leads pop state post := by
  refine .modify ?_
  simpa only [houter] using hpost

/-- What only tokens have been taken from. -/
structure Spares (before next : Parsing) : Prop where
  outer : next.outer = before.outer
  tokens : next.tokens.length ≤ before.tokens.length

theorem Spares.refl (state : Parsing) : Spares state state :=
  ⟨rfl, Nat.le_refl _⟩

theorem Spares.trans {first second third : Parsing} (hfirst : Spares first second)
    (hsecond : Spares second third) : Spares first third where
  outer := hsecond.outer.trans hfirst.outer
  tokens := hsecond.tokens.trans hfirst.tokens

theorem spares_skip (state : Parsing) (handles : List (List Char × Tag)) :
    Spares state { state with tokens := state.tokens.drop 1, handles } :=
  ⟨rfl, by simp⟩

/-! ## Nodes -/

theorem leads_anchorNext : Leads anchorNext state fun _ next => Spares state next := by
  refine .bind (leads_peek ?_)
  split
  · exact .bind (leads_skip (.pure (spares_skip state state.handles)))
  · exact .pure (.refl state)

theorem leads_tagNext : Leads tagNext state fun _ next => Spares state next := by
  refine .bind (leads_peek ?_)
  split
  · exact .bind (leads_skip (.pure (spares_skip state state.handles)))
  · exact .pure (.refl state)

theorem leads_properties : Leads properties state fun _ next => Spares state next := by
  refine .bind (leads_peek (.bind (leads_anchorNext.mono ?_)))
  intro anchor between hbetween
  split
  · exact .bind (leads_tagNext.mono fun _ _ hlast => .pure (hbetween.trans hlast))
  · refine .bind (leads_tagNext.mono fun found last hlast => ?_)
    split
    · exact .bind (leads_anchorNext.mono fun _ _ hend =>
        .pure (hbetween.trans (hlast.trans hend)))
    · exact .pure (hbetween.trans hlast)

theorem leads_resolveTag (found : Properties) :
    Leads (resolveTag found) state fun _ next => next = state := by
  unfold resolveTag
  split
  · exact .pure rfl
  · refine .ite (fun _ => .pure rfl) fun _ => .bind (.get ?_)
    split
    · exact .pure rfl
    · exact .throw _

variable {after : Expected} {outer : List Expected}

theorem leads_missing (block : Bool) (found : Properties) (tag : Option Tag) (token : Token)
    {bound : Nat} (houter : state.outer = after :: outer)
    (hbound : 4 * state.tokens.length ≤ bound) :
    Leads (node.missing block found tag token) state fun event next =>
      Meets state.outer bound event.part? next.left :=
  .ite (fun _ => .bind (leads_pop houter (.pure (.leaf houter.symm hbound)))) fun _ => .throw _

/-- A node is met. -/
theorem leads_node (block indentless : Bool) (houter : state.outer = after :: outer) :
    Leads (node block indentless) state fun event next =>
      Meets state.outer (4 * state.tokens.length + slack indentless) event.part? next.left := by
  unfold node
  refine .bind (leads_peek ?_)
  split
  · -- an alias is a node without properties
    refine .bind (leads_pop houter (.bind (leads_skip (.pure (.leaf houter.symm ?_)))))
    exact (Nat.mul_le_mul_left 4 (by simp [Parsing.left])).trans (Nat.le_add_right _ _)
  · refine .bind (leads_properties.mono ?_)
    rintro found between ⟨hbetween, htokens⟩
    have hpos : between.ahead.kind ≠ .streamEnd → 0 < between.tokens.length := fun hahead =>
      Nat.zero_lt_of_lt (between.length_drop_lt hahead)
    have hbound : 4 * between.tokens.length ≤ 4 * state.tokens.length + slack indentless := by
      omega
    rw [← hbetween] at houter ⊢
    refine .bind (leads_peek (.bind ((leads_resolveTag found).mono ?_)))
    rintro tag last rfl
    dsimp only
    -- what cannot begin a node leaves it out
    have hmissing := leads_missing block found tag last.ahead houter hbound
    split
    · -- a sequence without a token of its own
      refine .ite (fun hindentless => ?_) fun _ => hmissing
      refine .bind (leads_expect (.pure (.opened .sequence rfl rfl ?_)))
      rw [slack, if_pos hindentless]
      show 4 * last.tokens.length + 1 ≤ 4 * state.tokens.length + 1
      omega
    · refine .bind (leads_pop houter (.bind (leads_skip (.pure (.leaf houter.symm ?_)))))
      exact (Nat.mul_le_mul_left 4 (by simp [Parsing.left])).trans hbound
    · next hkind =>
      exact .bind (leads_expect (.pure
        (.first .sequence rfl rfl rfl (hpos (by simp [hkind])) hbound)))
    · next hkind =>
      exact .bind (leads_expect (.pure
        (.first .mapping rfl rfl rfl (hpos (by simp [hkind])) hbound)))
    · next hkind =>
      exact .ite (fun _ => .bind (leads_expect (.pure
        (.first .sequence rfl rfl rfl (hpos (by simp [hkind])) hbound)))) fun _ => hmissing
    · next hkind =>
      exact .ite (fun _ => .bind (leads_expect (.pure
        (.first .mapping rfl rfl rfl (hpos (by simp [hkind])) hbound)))) fun _ => hmissing
    · exact hmissing

/-! ## Turns -/

variable {before : Parsing} {spare : Nat} {role behind : Role} {roles : List Role}

/-- A token that is taken spares four steps. -/
theorem within_skip (hwithin : Within before.left state.left spare)
    (hahead : state.ahead.kind ≠ .streamEnd) :
    Within before.left ({ state with tokens := state.tokens.drop 1 } : Parsing).left (spare + 4) :=
  hwithin.take (state.length_drop_lt hahead) rfl

/-- Whether each end of a step is a turn of what is expected. -/
abbrev Turns (step : Parse Event) (state : Parsing) (roles : List Role) (before : Parsing) : Prop :=
  Leads step state fun event next => Goes roles before.left event.part? next.left

theorem goes_emptyScalar {expected : Expected} (mark : Mark) (hrole : role ≠ .pairEnd)
    (hbehind : role.behind? = some behind) (hexpected : Expects.role? expected = some behind)
    (hstacks : Stacks state.outer roles) (hwithin : Within before.left state.left spare)
    (hspare : Expects.weight expected < spare) :
    Goes (role :: roles) before.left (emptyScalar mark).part?
      ({ state with expected } : Parsing).left :=
  .leaf hrole hbehind hexpected hstacks hwithin rfl rfl hspare

/-- A node behind which something is expected is a turn. -/
theorem leads_pushed (block indentless : Bool) (hrole : role ≠ .pairEnd)
    (hbehind : role.behind? = some behind) (hafter : Expects.role? after = some behind)
    (hstacks : Stacks state.outer roles) (hwithin : Within before.left state.left spare)
    (hspare : Expects.weight after + slack indentless < spare) :
    Turns (push after >>= fun _ => node block indentless) state (role :: roles) before := by
  refine .bind (leads_push ((leads_node block indentless rfl).mono fun event next hmeets => ?_))
  refine hmeets.goes_pushed hrole hbehind hafter hstacks ?_
  have hwork : 4 * state.tokens.length + spare + weights state.outer ≤ before.left.work := hwithin
  show 4 * state.tokens.length + slack indentless + Expects.weight after + weights state.outer < _
  omega

theorem leads_nodeUnless (absent : TokenKind → Bool) (block indentless : Bool) (mark : Mark)
    (hrole : role ≠ .pairEnd) (hbehind : role.behind? = some behind)
    (hafter : Expects.role? after = some behind) (hstacks : Stacks state.outer roles)
    (hwithin : Within before.left state.left spare)
    (hspare : Expects.weight after + slack indentless < spare) :
    Turns (nodeUnless absent block indentless after mark) state (role :: roles) before := by
  refine .bind (leads_peek (.ite (fun _ => .bind (leads_expect (.pure ?_))) fun _ => ?_))
  · exact goes_emptyScalar _ hrole hbehind hafter hstacks hwithin
      (Nat.lt_of_le_of_lt (Nat.le_add_right _ _) hspare)
  · exact leads_pushed block indentless hrole hbehind hafter hstacks hwithin hspare

/-- The end of a collection is a turn. -/
theorem leads_close {part : Part} {kind : EventKind} (mark : Mark) {takes : Bool}
    (hpart : Event.part? { kind, mark } = some part) (hturn : Turn (role :: roles) part roles)
    (hstacks : Stacks state.outer roles) (hwithin : Within before.left state.left spare)
    (hspare : if takes then state.ahead.kind ≠ .streamEnd else 0 < spare) :
    Turns (close kind mark takes) state (role :: roles) before := by
  obtain ⟨first, outer, houter⟩ := hstacks.exists_cons
  rw [houter] at hstacks
  refine .bind (leads_pop houter (.ite (fun htakes => .bind (leads_skip (.pure ?_)))
    fun htakes => .pure ?_))
  · rw [if_pos htakes] at hspare
    have hlength := state.length_drop_lt hspare
    rw [hpart]
    refine .of_turn hturn hstacks hwithin ?_
    simp only [Parsing.left, houter]
    omega
  · rw [if_neg htakes] at hspare
    rw [hpart]
    refine .of_turn hturn hstacks hwithin ?_
    simp only [Parsing.left, houter]
    omega

/-! ## Block collections -/

theorem leads_blockEntry (hstacks : Stacks state.outer roles)
    (hwithin : Within before.left state.left 0) :
    Turns (blockEntry false) state (.item :: roles) before := by
  refine .bind (leads_peek ?_)
  split
  · next hkind =>
    exact .bind (leads_skip (leads_nodeUnless _ true false _ nofun rfl rfl hstacks
      (within_skip hwithin (by simp [hkind])) (by decide)))
  · next hkind =>
    exact leads_close _ rfl (.closeSequence roles) hstacks hwithin (by simp [hkind])
  · exact .throw _

theorem leads_indentlessEntry (hstacks : Stacks state.outer roles)
    (hwithin : Within before.left state.left 1) :
    Turns indentlessEntry state (.item :: roles) before := by
  refine .bind (leads_peek ?_)
  split
  · next hkind =>
    exact .bind (leads_skip (leads_nodeUnless _ true false _ nofun rfl rfl hstacks
      (within_skip hwithin (by simp [hkind])) (by decide)))
  · exact leads_close _ rfl (.closeSequence roles) hstacks hwithin Nat.one_pos

theorem leads_blockKey (hstacks : Stacks state.outer roles)
    (hwithin : Within before.left state.left 0) :
    Turns (blockKey false) state (.key :: roles) before := by
  refine .bind (leads_peek ?_)
  split
  · next hkind =>
    exact .bind (leads_skip (leads_nodeUnless _ true true _ nofun rfl rfl hstacks
      (within_skip hwithin (by simp [hkind])) (by decide)))
  · next hkind =>
    exact leads_close _ rfl (.closeMapping roles) hstacks hwithin (by simp [hkind])
  · exact .throw _

theorem leads_blockValue (hstacks : Stacks state.outer roles)
    (hwithin : Within before.left state.left 1) :
    Turns blockValue state (.value :: roles) before := by
  refine .bind (leads_peek ?_)
  split
  · next hkind =>
    exact .bind (leads_skip (leads_nodeUnless _ true true _ nofun rfl rfl hstacks
      (within_skip hwithin (by simp [hkind])) (by decide)))
  · exact .bind (leads_expect (.pure
      (goes_emptyScalar _ nofun rfl rfl hstacks hwithin (by decide))))

/-! ## Flow collections -/

theorem leads_separator (first : Bool) (activity : Activity) (problem : Problem)
    (hwithin : Within before.left state.left spare) :
    Leads (separator first activity problem) state fun _ next => next.outer = state.outer ∧
      Within before.left next.left (if first then spare else spare + 4) := by
  cases first with
  | true => exact .pure ⟨rfl, hwithin⟩
  | false =>
      refine .bind (leads_peek (.ite (fun hkind => leads_skip ⟨rfl, ?_⟩) fun _ => .throw _))
      exact within_skip hwithin (by simp [hkind])

theorem leads_flowEntry (first : Bool) (hstacks : Stacks state.outer roles)
    (hwithin : if first then
        Within before.left ({ state with tokens := state.tokens.drop 1 } : Parsing).left 4
      else Within before.left state.left 0) :
    Turns (flowEntry first) state (.item :: roles) before := by
  unfold flowEntry
  extract_lets entry
  have hentry : ∀ inner : Parsing, Stacks inner.outer roles →
      Within before.left inner.left (if first then 4 else 0) →
      Turns (entry ()) inner (.item :: roles) before := by
    intro inner hstacks hwithin
    refine .bind (leads_peek (.ite (fun hkind => ?_) fun _ => ?_))
    · exact leads_close _ rfl (.closeSequence roles) hstacks hwithin (by simp [hkind])
    · refine .bind ((leads_separator first _ _ hwithin).mono ?_)
      rintro - last ⟨hstacks', hwithin⟩
      replace hwithin : Within before.left last.left 4 := by cases first <;> exact hwithin
      rw [← hstacks'] at hstacks
      refine .bind (leads_peek ?_)
      split
      · next hkind =>
        -- a single pair has no place of its own on the stack
        have htaken := last.length_drop_lt (by simp [hkind])
        refine .bind (leads_expect (.bind (leads_skip (.pure
          (.of_turn (.openPair roles) (.cons rfl hstacks) hwithin ?_)))))
        show 4 * (last.tokens.drop 1).length + (3 + weights last.outer) <
          4 * last.tokens.length + 4 + weights last.outer
        omega
      · next hkind =>
        exact leads_close _ rfl (.closeSequence roles) hstacks hwithin (by simp [hkind])
      · exact leads_pushed false false nofun rfl rfl hstacks hwithin (by decide)
  cases first with
  | true => exact .bind (leads_skip (hentry _ hstacks hwithin))
  | false => exact hentry _ hstacks hwithin

theorem leads_flowPairKey (hstacks : Stacks state.outer roles)
    (hwithin : Within before.left state.left 3) :
    Turns flowPairKey state (.pairKey :: roles) before := by
  refine .bind (leads_peek (.ite (fun hkind => ?_) fun _ => ?_))
  · have hahead : state.ahead.kind ≠ .streamEnd := by
      rintro hend
      simp [hend] at hkind
    refine .bind (leads_skip (.bind (leads_expect (.pure ?_))))
    exact goes_emptyScalar _ nofun rfl rfl hstacks (within_skip hwithin hahead) (by decide)
  · exact leads_pushed false false nofun rfl rfl hstacks hwithin (by decide)

theorem leads_flowPairValue (hstacks : Stacks state.outer roles)
    (hwithin : Within before.left state.left 2) :
    Turns flowPairValue state (.pairValue :: roles) before := by
  refine .bind (leads_peek (.ite (fun hkind => ?_) fun _ => .bind (leads_expect (.pure ?_))))
  · exact .bind (leads_skip (.bind (leads_peek (leads_nodeUnless _ false false _ nofun rfl rfl
      hstacks (within_skip hwithin (by simp [hkind])) (by decide)))))
  · exact goes_emptyScalar _ nofun rfl rfl hstacks hwithin (by decide)

theorem leads_flowPairEnd (hstacks : Stacks state.outer roles)
    (hwithin : Within before.left state.left 1) :
    Turns flowPairEnd state (.pairEnd :: roles) before := by
  refine .bind (leads_expect (.bind (leads_peek (.pure
    (.of_turn (.closePair roles) (.cons rfl hstacks) hwithin ?_)))))
  show 4 * state.tokens.length + (0 + weights state.outer) <
    4 * state.tokens.length + 1 + weights state.outer
  omega

theorem leads_flowKey (first : Bool) (hstacks : Stacks state.outer roles)
    (hwithin : if first then
        Within before.left ({ state with tokens := state.tokens.drop 1 } : Parsing).left 4
      else Within before.left state.left 0) :
    Turns (flowKey first) state (.key :: roles) before := by
  unfold flowKey
  extract_lets entry
  -- behind the bracket or a comma an entry is read in the same way
  have hentry : ∀ inner : Parsing, Stacks inner.outer roles →
      Within before.left inner.left (if first then 4 else 0) →
      Turns (entry ()) inner (.key :: roles) before := by
    intro inner hstacks hwithin
    refine .bind (leads_peek (.ite (fun hkind => ?_) fun _ => ?_))
    · exact leads_close _ rfl (.closeMapping roles) hstacks hwithin (by simp [hkind])
    · refine .bind ((leads_separator first _ _ hwithin).mono ?_)
      rintro - last ⟨hstacks', hwithin⟩
      replace hwithin : Within before.left last.left 4 := by cases first <;> exact hwithin
      rw [← hstacks'] at hstacks
      refine .bind (leads_peek ?_)
      split
      · next hkind =>
        exact .bind (leads_skip (.bind (leads_peek (leads_nodeUnless _ false false _ nofun rfl rfl
          hstacks (within_skip hwithin (by simp [hkind])) (by decide)))))
      · next hkind =>
        exact leads_close _ rfl (.closeMapping roles) hstacks hwithin (by simp [hkind])
      · exact leads_pushed false false nofun rfl rfl hstacks hwithin (by decide)
  cases first with
  | true => exact .bind (leads_skip (hentry _ hstacks hwithin))
  | false => exact hentry _ hstacks hwithin

theorem leads_flowValue (absent : Bool) (hstacks : Stacks state.outer roles)
    (hwithin : Within before.left state.left 1) :
    Turns (flowValue absent) state (.value :: roles) before := by
  refine .bind (leads_peek (.ite (fun hkind => ?_) fun _ => .bind (leads_expect (.pure ?_))))
  · simp only [Bool.and_eq_true, decide_eq_true_eq] at hkind
    exact .bind (leads_skip (.bind (leads_peek (leads_nodeUnless _ false false _ nofun rfl rfl
      hstacks (within_skip hwithin (by simp [hkind.2])) (by decide)))))
  · exact goes_emptyScalar _ nofun rfl rfl hstacks hwithin (by decide)

/-! ## Whole steps -/

theorem leads_blockNode (hstacks : Stacks state.outer roles)
    (hwithin : Within before.left state.left 1) :
    Turns (node true false) state (.node :: roles) before := by
  obtain ⟨first, outer, houter⟩ := hstacks.exists_cons
  have hwork : 4 * state.tokens.length + 1 + weights state.outer ≤ before.left.work := hwithin
  refine (leads_node true false houter).mono fun event next hmeets => ?_
  refine hmeets.goes nofun hstacks ?_
  show 4 * state.tokens.length + 0 + weights state.outer < _
  omega

theorem leads_documentContent (hstacks : Stacks state.outer roles)
    (hwithin : Within before.left state.left 1) :
    Turns documentContent state (.node :: roles) before := by
  refine .bind (leads_peek (.ite (fun _ => ?_) fun _ => leads_blockNode hstacks hwithin))
  have hnode : Role.node ≠ .pairEnd := nofun
  obtain ⟨first, outer, houter⟩ := hstacks.exists_cons
  rw [houter] at hstacks
  refine .bind (leads_pop houter (.pure (.of_turn (.leaf hnode roles) hstacks hwithin ?_)))
  simp only [Parsing.left, houter]
  omega

theorem within_of_isFirst {expected : Expected} (hexpected : state.expected = expected)
    (hfirst : Expects.isFirst expected = true) :
    Within state.left ({ state with tokens := state.tokens.drop 1 } : Parsing).left 4 := by
  subst hexpected
  exact .of_isFirst hfirst rfl List.length_drop rfl

theorem within_self {expected : Expected} (hexpected : state.expected = expected)
    (hfirst : Expects.isFirst expected = false) :
    Within state.left state.left (Expects.weight expected) := by
  subst hexpected
  have hweight : state.left.weight = Expects.weight state.expected :=
    state.left.weight_of_not_soon rfl
  exact hweight ▸ .refl hfirst

/-- Where a stack of roles is expected, each step is a turn of it. -/
theorem leads_next (hstacks : Stacks (state.expected :: state.outer) (role :: roles)) :
    Turns next state (role :: roles) state := by
  obtain ⟨hrole, houter⟩ := hstacks.of_cons
  refine .bind (.get ?_)
  cases hexpected : state.expected <;> rw [hexpected] at hrole <;> cases hrole
  case documentContent.refl => exact leads_documentContent houter (within_self hexpected rfl)
  case blockNode.refl => exact leads_blockNode houter (within_self hexpected rfl)
  case firstBlockEntry.refl =>
    have hwithin := (within_of_isFirst hexpected rfl).mono (Nat.zero_le 4)
    exact .bind (leads_skip (leads_blockEntry houter hwithin))
  case blockEntry.refl => exact leads_blockEntry houter (within_self hexpected rfl)
  case indentlessEntry.refl => exact leads_indentlessEntry houter (within_self hexpected rfl)
  case firstBlockKey.refl =>
    have hwithin := (within_of_isFirst hexpected rfl).mono (Nat.zero_le 4)
    exact .bind (leads_skip (leads_blockKey houter hwithin))
  case blockKey.refl => exact leads_blockKey houter (within_self hexpected rfl)
  case blockValue.refl => exact leads_blockValue houter (within_self hexpected rfl)
  case firstFlowEntry.refl => exact leads_flowEntry true houter (within_of_isFirst hexpected rfl)
  case flowEntry.refl => exact leads_flowEntry false houter (within_self hexpected rfl)
  case flowPairKey.refl => exact leads_flowPairKey houter (within_self hexpected rfl)
  case flowPairValue.refl => exact leads_flowPairValue houter (within_self hexpected rfl)
  case flowPairEnd.refl => exact leads_flowPairEnd houter (within_self hexpected rfl)
  case firstFlowKey.refl => exact leads_flowKey true houter (within_of_isFirst hexpected rfl)
  case flowKey.refl => exact leads_flowKey false houter (within_self hexpected rfl)
  case flowValue.refl => exact leads_flowValue false houter (within_self hexpected rfl)
  case flowEmptyValue.refl => exact leads_flowValue true houter (within_self hexpected rfl)

theorem leads_next_of_documentEnd (hexpected : state.expected = .documentEnd) :
    Leads next state fun event _ => event.kind = .documentEnd := by
  refine .bind (.get ?_)
  rw [hexpected]
  refine .bind (leads_peek ?_)
  extract_lets rest
  have hrest : ∀ inner, Leads (rest ()) inner fun event _ => event.kind = .documentEnd :=
    fun inner => .bind (.modify (.bind (leads_expect (.pure rfl))))
  exact .ite (fun _ => .bind (leads_skip (hrest _))) fun _ => hrest _

/-! ## The start of a document -/

theorem leads_directives (remaining : Nat) (seen : Bool) :
    Leads (directives remaining seen) state fun _ next => Spares state next := by
  induction remaining generalizing state seen with
  | zero => exact .pure (.refl state)
  | succ remaining ih =>
      refine .bind (leads_peek ?_)
      split
      · refine .ite (fun _ => .bind (.throw _)) fun _ => ?_
        refine .ite (fun _ => .bind (.throw _)) fun _ => ?_
        exact .bind (leads_skip ((ih true).mono fun _ _ => (spares_skip state state.handles).trans))
      · refine .bind (.get (.ite (fun _ => .bind (.throw _)) fun _ => ?_))
        exact .bind (.modify (.bind (leads_skip ((ih seen).mono fun _ _ =>
          (spares_skip state _).trans))))
      · exact .pure (.refl state)

theorem leads_allDirectives : Leads allDirectives state fun _ next => Spares state next :=
  .bind (.get (leads_directives _ false))

theorem leads_next_of_streamStart (hexpected : state.expected = .streamStart) :
    Leads next state fun event next => event.kind = .streamStart ∧
      next.expected = .implicitDocument ∧ Spares state next := by
  refine .bind (.get ?_)
  rw [hexpected]
  exact .bind (leads_peek (.bind (leads_expect (.bind (leads_skip (.pure
    ⟨rfl, rfl, rfl, by simp⟩))))))

/-- The first document starts with a node, or the text holds none. -/
theorem leads_next_of_implicitDocument (hexpected : state.expected = .implicitDocument) :
    Leads next state fun event next => event.kind = .streamEnd ∨
      event.kind = .documentStart ∧ Expects.role? next.expected = some .node ∧
        Spares { state with outer := .documentEnd :: state.outer } next := by
  refine .bind (.get ?_)
  rw [hexpected]
  refine .bind (leads_peek (.ite (fun _ => .bind (leads_allDirectives.mono ?_))
    fun _ => .ite (fun _ => ?_) fun _ => .bind (leads_allDirectives.mono ?_)))
  · rintro - last ⟨houter, htokens⟩
    refine .bind (leads_push (.bind (leads_expect (.pure (.inr ⟨rfl, rfl, ?_, htokens⟩)))))
    rw [houter]
  · exact .bind (leads_expect (.bind (leads_skip (.pure (.inl rfl)))))
  · rintro - last ⟨houter, htokens⟩
    refine .bind (leads_peek (.ite (fun _ => .bind (.throw _)) fun _ => ?_))
    refine .bind (leads_push (.bind (leads_expect (.bind (leads_skip (.pure
      (.inr ⟨rfl, rfl, ?_, ?_⟩)))))))
    · rw [houter]
    · rw [List.length_drop]
      exact (Nat.sub_le _ _).trans htokens

end Parse

/-! ## Whole runs -/

/-- Whether an event ends the document or the text. -/
def Event.isEnd (event : Event) : Bool :=
  event.kind = .documentEnd || event.kind = .streamEnd

/-- Whether the document ends behind some events. -/
structure EndsBehind (list : EventList) (front : List Event) : Prop where
  events : ∃ mark rest, list.events = front ++ { kind := .documentEnd, mark } :: rest
  inside : ∀ event ∈ front, event.isEnd = false

/-- Whether there is a fault before the document ends. -/
structure IsBroken (list : EventList) : Prop where
  fault : list.fault ≠ none
  inside : ∀ event ∈ list.events, event.isEnd = false

theorem EndsBehind.cons {list : EventList} {front : List Event} {event : Event}
    (hends : EndsBehind list front) (hevent : event.isEnd = false) :
    EndsBehind { list with events := event :: list.events } (event :: front) where
  events := by
    obtain ⟨mark, rest, hevents⟩ := hends.events
    exact ⟨mark, rest, by rw [hevents]; rfl⟩
  inside := List.forall_mem_cons.mpr ⟨hevent, hends.inside⟩

theorem IsBroken.cons {list : EventList} {event : Event} (hbroken : IsBroken list)
    (hevent : event.isEnd = false) :
    IsBroken { list with events := event :: list.events } where
  fault := hbroken.fault
  inside := List.forall_mem_cons.mpr ⟨hevent, hbroken.inside⟩

namespace Parsing

variable {remaining : Nat} {state next : Parsing} {event : Event}

theorem isBroken_of_error {fault : Fault} (hstep : Parse.next.run state = .error fault) :
    IsBroken (state.run (remaining + 1)) := by
  rw [run, hstep]
  exact ⟨Option.some_ne_none fault, List.forall_mem_nil _⟩

theorem run_of_step (hstep : Parse.next.run state = .ok (event, next))
    (hkind : event.kind ≠ .streamEnd) :
    state.run (remaining + 1) =
      { next.run remaining with events := event :: (next.run remaining).events } := by
  rw [run, hstep]
  simp only [if_neg hkind]

/-- Where a stack of roles is expected, a run meets one of its words, or a fault. -/
theorem spells_run {stack : List Role} (hstacks : Stacks (state.expected :: state.outer) stack)
    (hwork : state.left.work < remaining) :
    IsBroken (state.run remaining) ∨
      ∃ front, EndsBehind (state.run remaining) front ∧
        Spells stack (front.filterMap Event.part?) := by
  induction remaining generalizing state stack with
  | zero => exact absurd hwork (Nat.not_lt_zero _)
  | succ remaining ih =>
      cases hstep : Parse.next.run state with
      | error fault => exact .inl (isBroken_of_error hstep)
      | ok reached =>
          obtain ⟨event, next⟩ := reached
          cases stack with
          | nil =>
              -- no role is left, so the end of the document is all that can come
              obtain ⟨hexpected, -⟩ := List.cons.inj hstacks.of_nil
              have hkind : event.kind = .documentEnd :=
                Parse.leads_next_of_documentEnd hexpected event next hstep
              rw [run_of_step hstep (by simp [hkind])]
              refine .inr ⟨[], ⟨⟨event.mark, (next.run remaining).events, ?_⟩,
                List.forall_mem_nil _⟩, .nil⟩
              rw [List.nil_append, ← hkind]
          | cons role roles =>
              -- a step takes one turn of the roles and leaves less to do
              obtain ⟨⟨met, behind, hpart, hturn, hnext⟩, hless⟩ :=
                Parse.leads_next hstacks event next hstep
              have hend : event.isEnd = false := by
                cases hkind : event.kind <;> simp_all [Event.part?, Event.isEnd]
              rw [run_of_step hstep (by rintro hkind; simp [Event.isEnd, hkind] at hend)]
              refine (ih hnext (by omega)).imp (·.cons hend) ?_
              rintro ⟨front, hends, hspells⟩
              refine ⟨event :: front, hends.cons hend, ?_⟩
              rw [List.filterMap_cons_some hpart]
              exact hturn.spells hspells

/-- The run of a text starts with a node, unless there is none. -/
theorem isNode_run (hexpected : state.expected = .implicitDocument) (houter : state.outer = [])
    (hremaining : 4 * state.tokens.length + 2 < remaining) :
    IsBroken (state.run remaining) ∨
      (state.run remaining).events.map Event.kind = [.streamEnd] ∨
      ∃ front, EndsBehind (state.run remaining) front ∧
        IsNode (front.filterMap Event.part?) := by
  obtain ⟨remaining, rfl⟩ := Nat.exists_eq_add_one.mpr (Nat.zero_lt_of_lt hremaining)
  cases hstep : Parse.next.run state with
  | error fault => exact .inl (isBroken_of_error hstep)
  | ok reached =>
      obtain ⟨event, next⟩ := reached
      rcases Parse.leads_next_of_implicitDocument hexpected event next hstep with
        hend | ⟨hkind, hnode, houter', htokens⟩
      · refine .inr (.inl ?_)
        rw [run, hstep]
        simp [hend]
      · -- the first event opens the document, and its node is what is left to do
        have hpart : event.part? = none := by simp [Event.part?, hkind]
        have hend : event.isEnd = false := by simp [Event.isEnd, hkind]
        have hfinish : next.outer = [.documentEnd] := by rw [houter', houter]
        have hwork : next.left.work < remaining := by
          refine Nat.lt_of_le_of_lt (Left.work_le_of_node hnode hfinish) ?_
          dsimp only [left] at htokens ⊢
          omega
        rw [run_of_step hstep (by simp [hkind])]
        refine (spells_run (.of_node hnode hfinish) hwork).imp (·.cons hend)
          fun ⟨front, hends, hspells⟩ => .inr ?_
        refine ⟨event :: front, hends.cons hend, ?_⟩
        rw [List.filterMap_cons_none hpart]
        exact hspells.isNode

end Parsing

/-- The events of the first document of a text are those of a tree, unless there is a fault or no
document at all. -/
theorem isNode_events (text : String) :
    IsBroken (.ofText text) ∨
      (EventList.ofText text).events.map Event.kind = [.streamStart, .streamEnd] ∨
      ∃ front, EndsBehind (.ofText text) front ∧ IsNode (front.filterMap Event.part?) := by
  unfold EventList.ofText EventList.ofTokens
  generalize TokenList.ofText text = tokens
  generalize hstate : Parsing.mk tokens.tokens tokens.fault .streamStart [] [] = state
  have hexpected : state.expected = .streamStart := hstate ▸ rfl
  have houter : state.outer = [] := hstate ▸ rfl
  have htokens : state.tokens = tokens.tokens := hstate ▸ rfl
  cases hstep : Parse.next.run state with
  | error fault => exact .inl (Parsing.isBroken_of_error hstep)
  | ok reached =>
      obtain ⟨event, next⟩ := reached
      obtain ⟨hkind, hnext, houter', hlength⟩ :=
        Parse.leads_next_of_streamStart hexpected event next hstep
      have hpart : event.part? = none := by simp [Event.part?, hkind]
      have hend : event.isEnd = false := by simp [Event.isEnd, hkind]
      rw [Parsing.run_of_step hstep (by simp [hkind])]
      refine (Parsing.isNode_run hnext (houter'.trans houter) ?_).imp (·.cons hend) fun hrest => ?_
      · rw [htokens] at hlength
        omega
      · refine hrest.imp (fun hkinds => ?_) fun ⟨front, hends, hnode⟩ => ?_
        · rw [List.map_cons, hkinds, hkind]
        · refine ⟨event :: front, hends.cons hend, ?_⟩
          rwa [List.filterMap_cons_none hpart]

end RamlCheck.Yaml
