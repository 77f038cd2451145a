import Mathlib.Data.List.Basic

/-!
# How the parts of a tree follow each other

A reader that goes through a text meets a tree part by part: a leaf, or the start or the end
of a collection.  What it expects is a stack of roles, one for each collection that is open,
and each part that it meets turns the stack into another one (`Turn`).  A reader that makes
only such turns, and ends with nothing expected any more, has met the parts of a tree.

## Strategy

For each stack it is said which words of parts it can still meet (`Spells`), role by role.  A
turn puts a part in front of a word of what is expected then, and that is a word of what was
expected before (`Turn.spells`).  So whole runs are read from their end.
-/

namespace RamlCheck.Nesting

/-- A part of a tree. -/
inductive Part
  | leaf
  | sequenceStart
  | sequenceEnd
  | mappingStart
  | mappingEnd
  deriving DecidableEq

/-- What a reader expects next: a node by itself, an item of a sequence or its end, a key of a
mapping or its end, the value of a key, or what is left of a single pair. -/
inductive Role
  | node
  | item
  | key
  | value
  | pairKey
  | pairValue
  | pairEnd
  deriving DecidableEq

/-- What is expected behind the node that a role expects, in the same collection. -/
def Role.behind? : Role → Option Role
  | .node => none
  | .item => some .item
  | .key => some .value
  | .value => some .key
  | .pairKey => some .pairValue
  | .pairValue => some .pairEnd
  | .pairEnd => none

/-! ## Words -/

mutual

/-- Whether some parts are those of a node. -/
inductive IsNode : List Part → Prop
  | leaf : IsNode [.leaf]
  | sequence {word : List Part} (hitems : Ends .item word) : IsNode (.sequenceStart :: word)
  | mapping {word : List Part} (hentries : Ends .key word) : IsNode (.mappingStart :: word)

/-- Whether some parts are those that a role ends with. -/
inductive Ends : Role → List Part → Prop
  | node {word : List Part} (hnode : IsNode word) : Ends .node word
  | closeSequence : Ends .item [.sequenceEnd]
  | closeMapping : Ends .key [.mappingEnd]
  | closePair {word : List Part} (hitems : Ends .item word) : Ends .pairEnd (.mappingEnd :: word)
  | further {role next : Role} {node word : List Part} (hbehind : role.behind? = some next)
      (hnode : IsNode node) (hnext : Ends next word) : Ends role (node ++ word)

end

/-- The words that a stack of roles ends with. -/
inductive Spells : List Role → List Part → Prop
  | nil : Spells [] []
  | cons {role : Role} {outer : List Role} {word rest : List Part} (hrole : Ends role word)
      (houter : Spells outer rest) : Spells (role :: outer) (word ++ rest)

/-- What a reader does when it meets a part.  A single pair is an item of a sequence, and has no
place of its own on the stack. -/
inductive Turn : List Role → Part → List Role → Prop
  | leaf {role : Role} (hrole : role ≠ .pairEnd) (outer : List Role) :
      Turn (role :: outer) .leaf (role.behind?.toList ++ outer)
  | openSequence {role : Role} (hrole : role ≠ .pairEnd) (outer : List Role) :
      Turn (role :: outer) .sequenceStart (.item :: (role.behind?.toList ++ outer))
  | openMapping {role : Role} (hrole : role ≠ .pairEnd) (outer : List Role) :
      Turn (role :: outer) .mappingStart (.key :: (role.behind?.toList ++ outer))
  | openPair (outer : List Role) : Turn (.item :: outer) .mappingStart (.pairKey :: outer)
  | closeSequence (outer : List Role) : Turn (.item :: outer) .sequenceEnd outer
  | closeMapping (outer : List Role) : Turn (.key :: outer) .mappingEnd outer
  | closePair (outer : List Role) : Turn (.pairEnd :: outer) .mappingEnd (.item :: outer)

variable {stack outer next : List Role} {role : Role} {part : Part} {node word : List Part}

/-! ## Turns -/

/-- A node in front of what is expected behind it is what its role expects. -/
theorem Spells.cons_node (hrole : role ≠ .pairEnd) (hnode : IsNode node)
    (hspells : Spells (role.behind?.toList ++ outer) word) :
    Spells (role :: outer) (node ++ word) := by
  cases hbehind : role.behind? with
  | none =>
      -- nothing but a node by itself has nothing behind it
      obtain rfl : role = .node := by cases role <;> simp_all [Role.behind?]
      exact .cons (.node hnode) hspells
  | some next =>
      rw [hbehind] at hspells
      cases hspells with
      | cons hnext houter =>
          rw [← List.append_assoc]
          exact .cons (.further hbehind hnode hnext) houter

/-- A collection that opens is a node in front of what is expected behind it. -/
theorem Spells.cons_opened {inner : Role} (hrole : role ≠ .pairEnd)
    (hopened : ∀ {word}, Ends inner word → IsNode (part :: word))
    (hspells : Spells (inner :: (role.behind?.toList ++ outer)) word) :
    Spells (role :: outer) (part :: word) := by
  cases hspells with
  | cons hinner houter => exact houter.cons_node hrole (hopened hinner)

/-- A single pair in front of what follows it is a mapping, and so an item. -/
theorem Spells.cons_pair (hspells : Spells (.pairKey :: outer) word) :
    Spells (.item :: outer) (.mappingStart :: word) := by
  cases hspells with
  | @cons _ _ pair rest hpair houter =>
      obtain ⟨key, others, hkey, hothers, rfl⟩ :
          ∃ key others, IsNode key ∧ Ends .pairValue others ∧ pair = key ++ others := by
        cases hpair with
        | further hbehind hkey hnext =>
            obtain rfl := Option.some.inj hbehind
            exact ⟨_, _, hkey, hnext, rfl⟩
      obtain ⟨value, ending, hvalue, hending, rfl⟩ :
          ∃ value ending, IsNode value ∧ Ends .pairEnd ending ∧ others = value ++ ending := by
        cases hothers with
        | further hbehind hvalue hnext =>
            obtain rfl := Option.some.inj hbehind
            exact ⟨_, _, hvalue, hnext, rfl⟩
      cases hending with
      | @closePair items hitems =>
          have hmapping : IsNode (.mappingStart :: (key ++ (value ++ [.mappingEnd]))) :=
            .mapping (.further rfl hkey (.further rfl hvalue .closeMapping))
          have hitem : Ends .item (_ ++ items) := .further rfl hmapping hitems
          have hword := Spells.cons hitem houter
          simpa using hword
      | further hbehind => cases hbehind

/-- A part in front of a word of the stack that it leaves is a word of the stack that it is met
with. -/
theorem Turn.spells (hturn : Turn stack part next) (hspells : Spells next word) :
    Spells stack (part :: word) := by
  cases hturn with
  | leaf hrole => exact hspells.cons_node hrole .leaf
  | openSequence hrole => exact hspells.cons_opened hrole .sequence
  | openMapping hrole => exact hspells.cons_opened hrole .mapping
  | openPair => exact hspells.cons_pair
  | closeSequence => exact .cons .closeSequence hspells
  | closeMapping => exact .cons .closeMapping hspells
  | closePair =>
      cases hspells with
      | cons hitems houter => exact .cons (.closePair hitems) houter

/-- What a node by itself ends with is a node. -/
theorem Spells.isNode (hspells : Spells [.node] word) : IsNode word := by
  cases hspells with
  | cons hrole houter =>
      cases houter
      rw [List.append_nil]
      cases hrole with
      | node hnode => exact hnode
      | further hbehind => cases hbehind

/-! ## Trees -/

section Draws

variable {Event Shown Tree : Type}

/-- What the entries of a mapping are drawn as. -/
def entriesOf (events : Tree → List Shown) (entries : List (Tree × Tree)) : List Shown :=
  entries.flatMap fun entry => events entry.1 ++ events entry.2

/-- How trees are put together from what the events that are their parts are drawn as. -/
structure Draws (part? : Event → Option Part) (draw : Event → Shown)
    (events : Tree → List Shown) : Prop where
  leaf : ∀ event, part? event = some .leaf → ∃ tree, events tree = [draw event]
  sequence : ∀ start finish (items : List Tree), part? start = some .sequenceStart →
    part? finish = some .sequenceEnd →
      ∃ tree, events tree = draw start :: (items.flatMap events ++ [draw finish])
  mapping : ∀ start finish (entries : List (Tree × Tree)), part? start = some .mappingStart →
    part? finish = some .mappingEnd →
      ∃ tree, events tree = draw start :: (entriesOf events entries ++ [draw finish])

/-- What comes up to the end of a collection is drawn as its items, or as its entries.  Single
pairs are mappings by then, and of nodes by themselves nothing is said. -/
def DrawsRest (part? : Event → Option Part) (draw : Event → Shown) (events : Tree → List Shown)
    (met : List Event) : Role → Prop
  | .item => ∃ (items : List Tree) (finish : Event), part? finish = some .sequenceEnd ∧
      met.map draw = items.flatMap events ++ [draw finish]
  | .key => ∃ (entries : List (Tree × Tree)) (finish : Event),
      part? finish = some .mappingEnd ∧ met.map draw = entriesOf events entries ++ [draw finish]
  | .value => ∃ (value : Tree) (entries : List (Tree × Tree)) (finish : Event),
      part? finish = some .mappingEnd ∧
        met.map draw = events value ++ (entriesOf events entries ++ [draw finish])
  | _ => True

variable {part? : Event → Option Part} {draw : Event → Shown} {events : Tree → List Shown}

theorem entriesOf_cons (events : Tree → List Shown) (key value : Tree)
    (entries : List (Tree × Tree)) :
    entriesOf events ((key, value) :: entries) =
      events key ++ (events value ++ entriesOf events entries) := by
  rw [entriesOf, List.flatMap_cons, List.append_assoc, entriesOf]

theorem exists_of_map_cons {start : Part} {word : List Part} {met : List Event}
    (hmet : met.map part? = (start :: word).map some) :
    ∃ event rest, met = event :: rest ∧ part? event = some start ∧
      rest.map part? = word.map some := by
  obtain ⟨event, rest, rfl, hevent, hrest⟩ := List.map_eq_cons_iff.mp hmet
  exact ⟨event, rest, rfl, hevent, hrest⟩

mutual

/-- The events that are the parts of a node are drawn as a tree. -/
theorem IsNode.exists_tree (hdraws : Draws part? draw events) :
    ∀ {word : List Part}, IsNode word → ∀ {met : List Event}, met.map part? = word.map some →
      ∃ tree, events tree = met.map draw
  | _, .leaf, met, hmet => by
      obtain ⟨event, rest, rfl, hevent, hrest⟩ := exists_of_map_cons hmet
      obtain rfl := List.map_eq_nil_iff.mp hrest
      exact hdraws.leaf event hevent
  | _, .sequence hitems, met, hmet => by
      obtain ⟨start, rest, rfl, hstart, hrest⟩ := exists_of_map_cons hmet
      obtain ⟨items, finish, hfinish, hitems⟩ := Ends.drawsRest hdraws hitems hrest
      obtain ⟨tree, htree⟩ := hdraws.sequence start finish items hstart hfinish
      exact ⟨tree, by rw [htree, List.map_cons, hitems]⟩
  | _, .mapping hentries, met, hmet => by
      obtain ⟨start, rest, rfl, hstart, hrest⟩ := exists_of_map_cons hmet
      obtain ⟨entries, finish, hfinish, hentries⟩ := Ends.drawsRest hdraws hentries hrest
      obtain ⟨tree, htree⟩ := hdraws.mapping start finish entries hstart hfinish
      exact ⟨tree, by rw [htree, List.map_cons, hentries]⟩

/-- The events that are parts up to the end of a collection are drawn as what is left of it. -/
theorem Ends.drawsRest (hdraws : Draws part? draw events) :
    ∀ {role : Role} {word : List Part}, Ends role word → ∀ {met : List Event},
      met.map part? = word.map some → DrawsRest part? draw events met role
  | _, _, .node _, met, hmet => trivial
  | _, _, .closeSequence, met, hmet => by
      obtain ⟨finish, rest, rfl, hfinish, hrest⟩ := exists_of_map_cons hmet
      obtain rfl := List.map_eq_nil_iff.mp hrest
      exact ⟨[], finish, hfinish, rfl⟩
  | _, _, .closeMapping, met, hmet => by
      obtain ⟨finish, rest, rfl, hfinish, hrest⟩ := exists_of_map_cons hmet
      obtain rfl := List.map_eq_nil_iff.mp hrest
      exact ⟨[], finish, hfinish, rfl⟩
  | _, _, .closePair _, met, hmet => trivial
  | role, _, .further hbehind hnode hnext, met, hmet => by
      rw [List.map_append] at hmet
      obtain ⟨first, rest, rfl, hfirst, hrest⟩ := List.map_eq_append_iff.mp hmet
      obtain ⟨tree, htree⟩ := IsNode.exists_tree hdraws hnode hfirst
      have hothers := Ends.drawsRest hdraws hnext hrest
      -- what the node is decides where its tree goes
      cases role with
      | item =>
          obtain rfl := Option.some.inj hbehind
          obtain ⟨items, finish, hfinish, hitems⟩ := hothers
          refine ⟨tree :: items, finish, hfinish, ?_⟩
          rw [List.map_append, hitems, ← htree, List.flatMap_cons, List.append_assoc]
      | key =>
          obtain rfl := Option.some.inj hbehind
          obtain ⟨value, entries, finish, hfinish, hentries⟩ := hothers
          refine ⟨(tree, value) :: entries, finish, hfinish, ?_⟩
          rw [List.map_append, hentries, ← htree, entriesOf_cons, List.append_assoc,
            List.append_assoc]
      | value =>
          obtain rfl := Option.some.inj hbehind
          obtain ⟨entries, finish, hfinish, hentries⟩ := hothers
          refine ⟨tree, entries, finish, hfinish, ?_⟩
          rw [List.map_append, hentries, ← htree]
      | node | pairKey | pairValue | pairEnd => trivial

end

end Draws

/-! ## What is left to do -/

/-- What the things that a reader of tokens may expect are to the tree. -/
class Expects (Expected : Type) where
  role? : Expected → Option Role
  /-- What is expected behind the tree. -/
  finish : Expected
  /-- Whether the start of a collection comes next, which has been seen already. -/
  isFirst : Expected → Bool
  /-- How many steps may be made at most before another token is taken. -/
  weight : Expected → Nat
  /-- The token that is left to be taken is worth four steps. -/
  weight_first : ∀ expected, isFirst expected = true → weight expected = 4
  weight_node : ∀ expected, role? expected = some .node → weight expected = 1
  weight_finish : weight finish = 0

/-- What is left to do: how many tokens, and what is expected. -/
structure Left (Expected : Type) where
  tokens : Nat
  expected : Expected
  outer : List Expected
  /-- Whether what is expected comes with the next token. -/
  soon : Bool

variable {Expected : Type} [Expects Expected]

/-- Whether what is expected up to the end of a tree is a stack of roles. -/
inductive Stacks : List Expected → List Role → Prop
  | nil : Stacks [Expects.finish] []
  | cons {expected : Expected} {outer : List Expected} {role : Role} {roles : List Role}
      (hrole : Expects.role? expected = some role) (houter : Stacks outer roles) :
      Stacks (expected :: outer) (role :: roles)

/-- The weight of all that is expected. -/
def weights : List Expected → Nat
  | [] => 0
  | expected :: outer => Expects.weight expected + weights outer

namespace Left

/-- How many steps may be made at most before another token is taken. -/
def weight (left : Left Expected) : Nat :=
  if left.soon then min 1 (Expects.weight left.expected) else Expects.weight left.expected

/-- A bound for the steps that are left: a step that takes no token brings the reader closer to
one that does. -/
def work (left : Left Expected) : Nat :=
  4 * (if Expects.isFirst left.expected then left.tokens - 1 else left.tokens) + left.weight +
    weights left.outer

end Left

/-- What is expected inside of a collection that starts. -/
inductive Opens : Part → Role → Prop
  | sequence : Opens .sequenceStart .item
  | mapping : Opens .mappingStart .key

/-- How many steps more are left where a sequence may start without a token of its own. -/
def slack (indentless : Bool) : Nat :=
  if indentless then 1 else 0

/-- What comes of a node, where nothing else is expected in front of what `outer` lists: it is a
leaf or a collection starts, and no more is left to do than `bound` says. -/
structure Meets (outer : List Expected) (bound : Nat) (part : Option Part)
    (next : Left Expected) : Prop where
  turn : part = some .leaf ∧ next.expected :: next.outer = outer ∨
    ∃ start inner, Opens start inner ∧ part = some start ∧
      Expects.role? next.expected = some inner ∧ next.outer = outer
  work : next.work ≤ bound + weights outer

/-- What comes of a step where a stack of roles is expected: a turn, and less is left to do. -/
structure Goes (roles : List Role) (before : Left Expected) (part : Option Part)
    (next : Left Expected) : Prop where
  turn : ∃ met stack, part = some met ∧ Turn roles met stack ∧
    Stacks (next.expected :: next.outer) stack
  work : next.work < before.work

/-- Whether some steps are spared when only tokens have been taken so far. -/
def Within (before left : Left Expected) (spare : Nat) : Prop :=
  4 * left.tokens + spare + weights left.outer ≤ before.work

variable {before left now : Left Expected} {expected after : Expected} {outer : List Expected}
  {roles : List Role} {spare bound : Nat} {met : Option Part}

namespace Stacks

theorem exists_cons {expected : List Expected} (hstacks : Stacks expected roles) :
    ∃ first outer, expected = first :: outer := by
  cases hstacks <;> exact ⟨_, _, rfl⟩

theorem of_cons {outer : List Expected} (hstacks : Stacks (expected :: outer) (role :: roles)) :
    Expects.role? expected = some role ∧ Stacks outer roles := by
  cases hstacks with
  | cons hrole houter => exact ⟨hrole, houter⟩

theorem of_nil {expected : List Expected} (hstacks : Stacks expected []) :
    expected = [Expects.finish] := by
  cases hstacks
  rfl

theorem of_node (hnode : Expects.role? expected = some .node) (houter : outer = [Expects.finish]) :
    Stacks (expected :: outer) [.node] :=
  .cons hnode (houter ▸ .nil)

end Stacks

@[simp]
theorem weights_cons (expected : Expected) (outer : List Expected) :
    weights (expected :: outer) = Expects.weight expected + weights outer :=
  rfl

namespace Left

theorem weight_le (left : Left Expected) : left.weight ≤ Expects.weight left.expected := by
  unfold weight
  split
  · exact Nat.min_le_right _ _
  · exact Nat.le_refl _

theorem weight_of_not_soon (left : Left Expected) (hsoon : left.soon = false) :
    left.weight = Expects.weight left.expected := by
  rw [weight, hsoon, if_neg Bool.false_ne_true]

theorem work_le_of_weight (left : Left Expected) :
    left.work ≤ 4 * left.tokens + left.weight + weights left.outer := by
  have htokens : (if Expects.isFirst left.expected then left.tokens - 1 else left.tokens) ≤
      left.tokens := by
    split
    · exact Nat.sub_le _ _
    · exact Nat.le_refl _
  unfold work
  omega

theorem work_le (left : Left Expected) :
    left.work ≤ 4 * left.tokens + weights (left.expected :: left.outer) := by
  have hwork := left.work_le_of_weight
  have hweight := left.weight_le
  rw [weights_cons]
  omega

/-- Where a tree is all that is expected, one step is left beside those for the tokens. -/
theorem work_le_of_node (hnode : Expects.role? left.expected = some .node)
    (houter : left.outer = [Expects.finish]) : left.work ≤ 4 * left.tokens + 1 := by
  have hwork := left.work_le
  rw [weights_cons, Expects.weight_node _ hnode, houter, weights_cons, Expects.weight_finish,
    weights] at hwork
  exact hwork

/-- The start of a collection pays for what is inside. -/
theorem work_le_of_isFirst (hfirst : Expects.isFirst left.expected = true)
    (htokens : 0 < left.tokens) : left.work ≤ 4 * left.tokens + weights left.outer := by
  have hweight := left.weight_le
  rw [Expects.weight_first _ hfirst] at hweight
  rw [work, if_pos hfirst]
  omega

end Left

namespace Within

theorem mono {less : Nat} (hwithin : Within before left spare) (hless : less ≤ spare) :
    Within before left less := by
  unfold Within at hwithin ⊢
  omega

/-- A token that is taken spares four steps. -/
theorem take (hwithin : Within before left spare) (htokens : now.tokens < left.tokens)
    (houter : now.outer = left.outer) : Within before now (spare + 4) := by
  unfold Within at hwithin ⊢
  rw [houter]
  omega

/-- Where a collection has started, its start is not left to be taken. -/
theorem of_isFirst (hfirst : Expects.isFirst before.expected = true)
    (hsoon : before.soon = false) (htokens : left.tokens = before.tokens - 1)
    (houter : left.outer = before.outer) : Within before left 4 := by
  unfold Within Left.work
  exact Nat.le_of_eq (by rw [if_pos hfirst, before.weight_of_not_soon hsoon,
    Expects.weight_first _ hfirst, htokens, houter])

theorem refl (hfirst : Expects.isFirst left.expected = false) :
    Within left left left.weight := by
  have hnot : ¬Expects.isFirst left.expected = true := by simp [hfirst]
  unfold Within Left.work
  exact Nat.le_of_eq (by rw [if_neg hnot])

end Within

theorem Meets.leaf (hstack : now.expected :: now.outer = outer) (htokens : 4 * now.tokens ≤ bound) :
    Meets outer bound (some .leaf) now where
  turn := .inl ⟨rfl, hstack⟩
  work := by
    have hwork := now.work_le
    rw [hstack] at hwork
    omega

/-- A collection without a token of its own starts. -/
theorem Meets.opened {start : Part} {inner : Role} (hopens : Opens start inner)
    (hinner : Expects.role? now.expected = some inner) (houter : now.outer = outer)
    (hbound : 4 * now.tokens + Expects.weight now.expected ≤ bound) :
    Meets outer bound (some start) now where
  turn := .inr ⟨start, inner, hopens, rfl, hinner, houter⟩
  work := by
    have hwork := now.work_le
    rw [weights_cons, houter] at hwork
    omega

/-- A collection starts with its token, which is left to be taken. -/
theorem Meets.first {start : Part} {inner : Role} (hopens : Opens start inner)
    (hinner : Expects.role? now.expected = some inner) (houter : now.outer = outer)
    (hfirst : Expects.isFirst now.expected = true) (htokens : 0 < now.tokens)
    (hbound : 4 * now.tokens ≤ bound) : Meets outer bound (some start) now where
  turn := .inr ⟨start, inner, hopens, rfl, hinner, houter⟩
  work := by
    have hwork := now.work_le_of_isFirst hfirst htokens
    rw [houter] at hwork
    omega

/-- A node is a turn of the role that expects it. -/
theorem Meets.goes (hmeets : Meets outer bound met now) (hrole : role ≠ .pairEnd)
    (hstacks : Stacks outer (role.behind?.toList ++ roles))
    (hwork : bound + weights outer < before.work) : Goes (role :: roles) before met now where
  turn := by
    rcases hmeets.turn with ⟨hpart, hnext⟩ | ⟨start, inner, hopens, hpart, hinner, hnext⟩
    · exact ⟨_, _, hpart, .leaf hrole roles, hnext ▸ hstacks⟩
    · cases hopens with
      | sequence =>
          exact ⟨_, _, hpart, .openSequence hrole roles, .cons hinner (hnext ▸ hstacks)⟩
      | mapping =>
          exact ⟨_, _, hpart, .openMapping hrole roles, .cons hinner (hnext ▸ hstacks)⟩
  work := Nat.lt_of_le_of_lt hmeets.work hwork

/-- A node in front of something else that is expected is a turn. -/
theorem Meets.goes_pushed {next : Role} (hmeets : Meets (after :: outer) bound met now)
    (hrole : role ≠ .pairEnd) (hbehind : role.behind? = some next)
    (hafter : Expects.role? after = some next) (hstacks : Stacks outer roles)
    (hwork : bound + Expects.weight after + weights outer < before.work) :
    Goes (role :: roles) before met now := by
  refine hmeets.goes hrole ?_ ?_
  · rw [hbehind]
    exact .cons hafter hstacks
  · rwa [weights_cons, ← Nat.add_assoc]

/-- A leaf for a missing node is a turn. -/
theorem Goes.leaf {next : Role} (hrole : role ≠ .pairEnd) (hbehind : role.behind? = some next)
    (hexpected : Expects.role? now.expected = some next) (hstacks : Stacks now.outer roles)
    (hwithin : Within before left spare) (htokens : now.tokens = left.tokens)
    (houter : now.outer = left.outer) (hspare : now.weight < spare) :
    Goes (role :: roles) before (some .leaf) now where
  turn := by
    refine ⟨.leaf, next :: roles, rfl, ?_, .cons hexpected hstacks⟩
    have hturn := Turn.leaf hrole roles
    rwa [hbehind] at hturn
  work := by
    unfold Within at hwithin
    rw [← htokens, ← houter] at hwithin
    exact Nat.lt_of_le_of_lt now.work_le_of_weight (by omega)

/-- Any other part is a turn if what is expected then says so, and a token has been taken for
it or a step is spared. -/
theorem Goes.of_turn {stack next : List Role} (hturn : Turn stack part next)
    (hstacks : Stacks (now.expected :: now.outer) next) (hwithin : Within before left spare)
    (hspare : 4 * now.tokens + weights (now.expected :: now.outer) <
      4 * left.tokens + spare + weights left.outer) : Goes stack before (some part) now where
  turn := ⟨part, next, rfl, hturn, hstacks⟩
  work := Nat.lt_of_le_of_lt now.work_le (Nat.lt_of_lt_of_le hspare hwithin)

end RamlCheck.Nesting
