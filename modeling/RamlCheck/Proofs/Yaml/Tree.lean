import RamlCheck.Proofs.Reader
import RamlCheck.Proofs.Yaml.Nesting
import RamlCheck.Yaml.Document

/-!
# Values of trees

The items of a document are those of a tree: `Node.items` lists them, and each text that gives a
value has such a tree (`exists_tree_of_value`).  Reading them comes to a value of that tree
(`Node.Means`, `Items.means_of_value`): each scalar is resolved where it stands, and each
collection holds as many values as there are nodes inside it.

## Strategy

Reading starts at the first item of a node and ends behind the last one, whatever follows.
This is the triple of each node (`ReadsAs`), and the induction is on the tree.  The loops over
the entries of a collection stop at its end, since no node begins with an item that ends one.

That there is a tree comes from the events, which nest: collecting them appends an item for each
part of a node (`collect_append`).
-/

namespace RamlCheck.Yaml

open Std.Do

set_option mvcgen.warning false

/-- A tree of nodes with their places.  An alias is a node without anything inside. -/
inductive Node
  | scalar (mark : Mark) (tag : Option Tag) (text : List Char) (isPlain : Bool)
  | aliased (mark : Mark) (number : Nat)
  | sequence (start finish : Mark) (tag : Option Tag) (items : List Node)
  | mapping (start finish : Mark) (tag : Option Tag) (entries : List (Node × Node))

/-- A value under a local tag, if there is one. -/
def underTag (tag : Option Tag) (value : Value) : Value :=
  match tag.bind Tag.localName? with
  | some name => .tagged name value
  | none => value

namespace Node

mutual

/-- The items of a tree. -/
def items : Node → List Item
  | .scalar mark tag text isPlain => [{ kind := .scalar tag text isPlain, mark }]
  | .aliased mark number => [{ kind := .aliased number, mark }]
  | .sequence start finish tag inner =>
      { kind := .sequenceStart tag, mark := start } ::
        (itemsOfItems inner ++ [{ kind := .sequenceEnd, mark := finish }])
  | .mapping start finish tag entries =>
      { kind := .mappingStart tag, mark := start } ::
        (itemsOfEntries entries ++ [{ kind := .mappingEnd, mark := finish }])

/-- The items of the nodes in a sequence. -/
def itemsOfItems : List Node → List Item
  | [] => []
  | node :: rest => items node ++ itemsOfItems rest

/-- The items of the entries of a mapping. -/
def itemsOfEntries : List (Node × Node) → List Item
  | [] => []
  | (key, value) :: rest => items key ++ (items value ++ itemsOfEntries rest)

end

mutual

/-- Whether a value is what a tree means.  The value of an alias is left open. -/
def Means : Node → Value → Prop
  | .scalar _ tag text isPlain, value =>
      ∃ path mark inner, value = underTag tag inner ∧
        scalarValue path mark (tag.bind Tag.localName?).isSome tag text isPlain = .ok inner
  | .aliased _ _, _ => True
  | .sequence _ _ tag inner, value =>
      ∃ values, value = underTag tag (.sequence values) ∧ MeansItems inner values
  | .mapping _ _ tag entries, value =>
      ∃ values, value = underTag tag (.mapping values) ∧ MeansEntries entries values

/-- Whether values are what the nodes in a sequence mean. -/
def MeansItems : List Node → List Value → Prop
  | [], [] => True
  | node :: nodes, value :: values => Means node value ∧ MeansItems nodes values
  | _, _ => False

/-- Whether entries are what the entries of a mapping mean. -/
def MeansEntries : List (Node × Node) → List (Value × Value) → Prop
  | [], [] => True
  | (key, node) :: entries, (keyValue, value) :: values =>
      (Means key keyValue ∧ Means node value) ∧ MeansEntries entries values
  | _, _ => False

end

/-- Reading a node ends behind it, with what it means. -/
def ReadsAs (node : Node) (read : ReadValue Value) : Prop :=
  ∀ rest jumps value state,
    read.run { rest := node.items ++ rest, jumps } = .ok (value, state) →
      state.rest = rest ∧ node.Means value

end Node

/-! ## Steps of reading -/

variable {document : Items} {First Result : Type}

/-- A step that ends well and comes first has ended well itself. -/
theorem exists_of_run_bind {first : ReadValue First} {next : First → ReadValue Result}
    {state after : Reading} {result : Result}
    (hrun : (first >>= next).run state = .ok (result, after)) :
    ∃ between inner, first.run state = .ok (inner, between) ∧
      (next inner).run between = .ok (result, after) := by
  rw [StateT.run_bind] at hrun
  cases hfirst : first.run state with
  | error error => rw [hfirst] at hrun; contradiction
  | ok reached => rw [hfirst] at hrun; exact ⟨reached.2, reached.1, rfl, hrun⟩

/-- A node shows its first item before it is read. -/
theorem Node.exists_run_peekItem (node : Node) (rest : List Item) (jumps : Nat) :
    ∃ first, (peekItem document).run { rest := node.items ++ rest, jumps } =
        .ok (first, { rest := node.items ++ rest, jumps }) ∧
      first.kind ≠ .sequenceEnd ∧ first.kind ≠ .mappingEnd := by
  cases node <;> exact ⟨_, rfl, by simp, by simp⟩

/-! ## Collections -/

namespace Node

variable {read : List Segment → ReadValue Value} {path : List Segment}

theorem readsAs_readItems {nodes : List Node}
    (hread : ∀ node ∈ nodes, ∀ path, node.ReadsAs (read path)) {finish : Mark} {rest : List Item}
    {remaining : Nat} (hremaining : nodes.length < remaining) {position : Nat}
    {reversed : List Value} {jumps : Nat} {value : Value} {state : Reading}
    (hrun : (readItems document read path remaining position reversed).run
      { rest := itemsOfItems nodes ++ { kind := .sequenceEnd, mark := finish } :: rest, jumps } =
        .ok (value, state)) :
    state.rest = rest ∧ ∃ values, value = .sequence (reversed.reverse ++ values) ∧
      MeansItems nodes values := by
  induction nodes generalizing remaining position reversed jumps with
  | nil =>
      obtain ⟨remaining, rfl⟩ := Nat.exists_eq_add_one.mpr hremaining
      obtain ⟨rfl, rfl⟩ := Prod.mk.inj (Except.ok.inj hrun)
      exact ⟨rfl, [], by rw [List.append_nil], trivial⟩
  | cons node nodes ih =>
      obtain ⟨remaining, rfl⟩ := Nat.exists_eq_add_one.mpr (Nat.zero_lt_of_lt hremaining)
      obtain ⟨hnode, hnodes⟩ := List.forall_mem_cons.mp hread
      rw [itemsOfItems, List.append_assoc] at hrun
      obtain ⟨first, hpeek, hend, -⟩ := node.exists_run_peekItem _ jumps
      rw [readItems, StateT.run_bind, hpeek] at hrun
      -- a node is ahead and not the end, so that it is read as the next item
      change (if first.kind = .sequenceEnd then _ else _ : ReadValue Value).run _ = _ at hrun
      rw [if_neg hend] at hrun
      obtain ⟨between, inner, hinner, hrun⟩ := exists_of_run_bind hrun
      obtain ⟨hbetween, hmeans⟩ := hnode _ _ _ _ _ hinner
      obtain ⟨others, jumps⟩ := between
      obtain rfl : others = _ := hbetween
      obtain ⟨hrest, values, rfl, hvalues⟩ := ih hnodes (Nat.lt_of_succ_lt_succ hremaining) hrun
      exact ⟨hrest, inner :: values, by simp, hmeans, hvalues⟩

theorem readsAs_readEntries {entries : List (Node × Node)}
    (hread : ∀ entry ∈ entries, ∀ path, entry.1.ReadsAs (read path) ∧ entry.2.ReadsAs (read path))
    {mark finish : Mark} {rest : List Item} {remaining : Nat}
    (hremaining : entries.length < remaining) {reversed : List (Value × Value)} {jumps : Nat}
    {value : Value} {state : Reading}
    (hrun : (readEntries document read path mark remaining reversed).run
      { rest := itemsOfEntries entries ++ { kind := .mappingEnd, mark := finish } :: rest,
        jumps } = .ok (value, state)) :
    state.rest = rest ∧ ∃ values, value = .mapping (reversed.reverse ++ values) ∧
      MeansEntries entries values := by
  induction entries generalizing remaining reversed jumps with
  | nil =>
      obtain ⟨remaining, rfl⟩ := Nat.exists_eq_add_one.mpr hremaining
      obtain ⟨rfl, rfl⟩ := Prod.mk.inj (Except.ok.inj hrun)
      exact ⟨rfl, [], by rw [List.append_nil], trivial⟩
  | cons entry entries ih =>
      obtain ⟨key, node⟩ := entry
      obtain ⟨remaining, rfl⟩ := Nat.exists_eq_add_one.mpr (Nat.zero_lt_of_lt hremaining)
      obtain ⟨hentry, hentries⟩ := List.forall_mem_cons.mp hread
      rw [itemsOfEntries, List.append_assoc, List.append_assoc] at hrun
      obtain ⟨first, hpeek, -, hend⟩ := key.exists_run_peekItem _ jumps
      rw [readEntries, StateT.run_bind, hpeek] at hrun
      change (if first.kind = .mappingEnd then _ else _ : ReadValue Value).run _ = _ at hrun
      rw [if_neg hend] at hrun
      -- first the key, then, unless the key is there already, its value
      obtain ⟨between, keyValue, hkey, hrun⟩ := exists_of_run_bind hrun
      obtain ⟨hbetween, hmeans⟩ := (hentry path).1 _ _ _ _ hkey
      obtain ⟨others, jumps⟩ := between
      obtain rfl : others = _ := hbetween
      split at hrun
      · contradiction
      · obtain ⟨between, inner, hinner, hrun⟩ := exists_of_run_bind hrun
        obtain ⟨hbetween, hinnerMeans⟩ := (hentry _).2 _ _ _ _ hinner
        obtain ⟨others, jumps⟩ := between
        obtain rfl : others = _ := hbetween
        obtain ⟨hrest, values, rfl, hvalues⟩ :=
          ih hentries (Nat.lt_of_succ_lt_succ hremaining) hrun
        exact ⟨hrest, (keyValue, inner) :: values, by simp, ⟨hmeans, hinnerMeans⟩, hvalues⟩

end Node

/-! ## Nodes -/

variable {inner : Option (List Segment → ReadValue Value)} {path : List Segment}

/-- What has been read under a tag is the tag and what stands under it. -/
theorem exists_of_run_readLabelled {item : Item} {value : Value} {state after : Reading}
    (hrun : (readLabelled document inner path item).run state = .ok (value, after)) :
    ∃ content, value = underTag (tagOf item) content ∧
      (readContent document inner ((tagOf item).bind Tag.localName?).isSome path item).run state =
        .ok (content, after) := by
  unfold readLabelled at hrun
  unfold underTag
  split at hrun
  · next name hname =>
    obtain ⟨between, content, hcontent, hrun⟩ := exists_of_run_bind hrun
    obtain ⟨rfl, rfl⟩ := Prod.mk.inj (Except.ok.inj hrun)
    rw [hname]
    exact ⟨content, rfl, hcontent⟩
  · next hname =>
    rw [hname]
    exact ⟨value, rfl, hrun⟩

/-- An alias has been read when reading goes on behind it. -/
theorem rest_of_run_aliased {mark : Mark} {number : Nat} {rest : List Item} {jumps : Nat}
    {value : Value} {state : Reading}
    (hrun : (readWith document inner path).run
      { rest := { kind := .aliased number, mark } :: rest, jumps } = .ok (value, state)) :
    state.rest = rest := by
  obtain ⟨between, item, hpeek, hrun⟩ := exists_of_run_bind hrun
  obtain ⟨rfl, rfl⟩ := Prod.mk.inj (Except.ok.inj hpeek)
  obtain ⟨between, _, hskip, hrun⟩ := exists_of_run_bind hrun
  obtain ⟨-, rfl⟩ := Prod.mk.inj (Except.ok.inj hskip)
  obtain ⟨between, before, hget, hrun⟩ := exists_of_run_bind hrun
  obtain ⟨rfl, rfl⟩ := Prod.mk.inj (Except.ok.inj hget)
  dsimp only at hrun
  split at hrun
  · contradiction
  · split at hrun
    · contradiction
    · obtain ⟨between, _, -, hrun⟩ := exists_of_run_bind hrun
      obtain ⟨between, target, -, hrun⟩ := exists_of_run_bind hrun
      obtain ⟨between, content, -, hrun⟩ := exists_of_run_bind hrun
      obtain ⟨-, rfl⟩ := Prod.mk.inj (Except.ok.inj hrun)
      rfl

namespace Node

theorem length_items_pos (node : Node) : 0 < node.items.length := by
  cases node <;> exact Nat.zero_lt_succ _

/-- There are at least as many items as nodes. -/
theorem length_le_itemsOfItems (nodes : List Node) :
    nodes.length ≤ (itemsOfItems nodes).length := by
  induction nodes with
  | nil => exact Nat.zero_le _
  | cons node nodes ih =>
      have hnode := node.length_items_pos
      rw [itemsOfItems, List.length_append, List.length_cons]
      omega

theorem length_le_itemsOfEntries (entries : List (Node × Node)) :
    entries.length ≤ (itemsOfEntries entries).length := by
  induction entries with
  | nil => exact Nat.zero_le _
  | cons entry entries ih =>
      have hkey := entry.1.length_items_pos
      rw [itemsOfEntries, List.length_append, List.length_append, List.length_cons]
      omega

/-- The step that reads the nodes inside, at some depth. -/
def inside (document : Items) : Nat → Option (List Segment → ReadValue Value)
  | 0 => none
  | depth + 1 => some (readNode document depth)

theorem readNode_eq (depth : Nat) (path : List Segment) :
    readNode document depth path = readWith document (inside document depth) path := by
  cases depth <;> rfl

mutual

/-- A node is read as what it means, up to its end. -/
theorem readsAs_readNode : ∀ node : Node, node.items.length ≤ document.items.length →
    ∀ depth path, node.ReadsAs (readNode document depth path)
  | .scalar mark tag text isPlain, hlength, depth, path, rest, jumps, value, state, hrun => by
      rw [readNode_eq] at hrun
      obtain ⟨content, rfl, hcontent⟩ := exists_of_run_readLabelled hrun
      obtain ⟨between, _, hskip, hcontent⟩ := exists_of_run_bind hcontent
      obtain ⟨-, rfl⟩ := Prod.mk.inj (Except.ok.inj hskip)
      split at hcontent
      · next resolved hscalar =>
        obtain ⟨rfl, rfl⟩ := Prod.mk.inj (Except.ok.inj hcontent)
        exact ⟨rfl, path, mark, resolved, rfl, hscalar⟩
      · contradiction
  | .aliased mark number, hlength, depth, path, rest, jumps, value, state, hrun => by
      rw [readNode_eq] at hrun
      exact ⟨rest_of_run_aliased hrun, trivial⟩
  | .sequence start finish tag nodes, hlength, depth, path, rest, jumps, value, state, hrun => by
      rw [items, List.length_cons, List.length_append] at hlength
      have hinside := readsAs_readNodes nodes (by omega)
      have hnodes := length_le_itemsOfItems nodes
      rw [readNode_eq, items, List.cons_append, List.append_assoc] at hrun
      obtain ⟨content, rfl, hcontent⟩ := exists_of_run_readLabelled hrun
      obtain ⟨between, _, hskip, hcontent⟩ := exists_of_run_bind hcontent
      obtain ⟨-, rfl⟩ := Prod.mk.inj (Except.ok.inj hskip)
      -- a collection too deep is refused, so that it means nothing
      cases depth with
      | zero => contradiction
      | succ depth =>
          obtain ⟨hrest, values, rfl, hvalues⟩ := readsAs_readItems
            (fun node hnode => hinside node hnode depth) (by omega) hcontent
          exact ⟨hrest, values, rfl, hvalues⟩
  | .mapping start finish tag entries, hlength, depth, path, rest, jumps, value, state, hrun => by
      rw [items, List.length_cons, List.length_append] at hlength
      have hinside := readsAs_readNodesOfEntries entries (by omega)
      have hentries := length_le_itemsOfEntries entries
      rw [readNode_eq, items, List.cons_append, List.append_assoc] at hrun
      obtain ⟨content, rfl, hcontent⟩ := exists_of_run_readLabelled hrun
      obtain ⟨between, _, hskip, hcontent⟩ := exists_of_run_bind hcontent
      obtain ⟨-, rfl⟩ := Prod.mk.inj (Except.ok.inj hskip)
      cases depth with
      | zero => contradiction
      | succ depth =>
          obtain ⟨hrest, values, rfl, hvalues⟩ := readsAs_readEntries
            (fun entry hentry path => ⟨(hinside entry hentry).1 depth path,
              (hinside entry hentry).2 depth path⟩) (by omega) hcontent
          exact ⟨hrest, values, rfl, hvalues⟩

theorem readsAs_readNodes : ∀ nodes : List Node,
    (itemsOfItems nodes).length ≤ document.items.length →
    ∀ node ∈ nodes, ∀ depth path, node.ReadsAs (readNode document depth path)
  | [], _ => List.forall_mem_nil _
  | node :: nodes, hlength => by
      rw [itemsOfItems, List.length_append] at hlength
      exact List.forall_mem_cons.mpr
        ⟨readsAs_readNode node (by omega), readsAs_readNodes nodes (by omega)⟩

theorem readsAs_readNodesOfEntries : ∀ entries : List (Node × Node),
    (itemsOfEntries entries).length ≤ document.items.length →
    ∀ entry ∈ entries, (∀ depth path, entry.1.ReadsAs (readNode document depth path)) ∧
      ∀ depth path, entry.2.ReadsAs (readNode document depth path)
  | [], _ => List.forall_mem_nil _
  | (key, node) :: entries, hlength => by
      rw [itemsOfEntries, List.length_append, List.length_append] at hlength
      exact List.forall_mem_cons.mpr
        ⟨⟨readsAs_readNode key (by omega), readsAs_readNode node (by omega)⟩,
          readsAs_readNodesOfEntries entries (by omega)⟩

end

end Node

/-- The value of a document whose items are those of a tree is one that this tree means. -/
theorem Items.means_of_value {node : Node} {rest : List Item} {value : Value}
    (hitems : document.items = node.items ++ rest) (hvalue : document.value = .ok value) :
    node.Means value := by
  unfold Items.value at hvalue
  split at hvalue
  · contradiction
  · next inner state hrun =>
    split at hvalue
    · contradiction
    · obtain rfl := Except.ok.inj hvalue
      rw [hitems] at hrun
      have hlength : node.items.length ≤ document.items.length := by
        rw [hitems, List.length_append]
        exact Nat.le_add_right _ _
      exact (node.readsAs_readNode hlength _ _ _ _ _ _ hrun).2

/-! ## Trees of texts -/

/-- The part of a tree that an item is. -/
def Item.part? (item : Item) : Option Nesting.Part :=
  match item.kind with
  | .scalar .. | .aliased _ => some .leaf
  | .sequenceStart _ => some .sequenceStart
  | .sequenceEnd => some .sequenceEnd
  | .mappingStart _ => some .mappingStart
  | .mappingEnd => some .mappingEnd
  | .void => none

namespace Node

theorem itemsOfItems_eq (nodes : List Node) : itemsOfItems nodes = nodes.flatMap items := by
  induction nodes with
  | nil => rfl
  | cons node rest ih => rw [itemsOfItems, ih, List.flatMap_cons]

theorem itemsOfEntries_eq (entries : List (Node × Node)) :
    itemsOfEntries entries = Nesting.entriesOf items entries := by
  induction entries with
  | nil => rfl
  | cons entry rest ih => rw [itemsOfEntries, ih, Nesting.entriesOf_cons]

/-- A tree is put together from its parts. -/
theorem draws : Nesting.Draws Item.part? id Node.items where
  leaf item hitem := by
    obtain ⟨kind, mark⟩ := item
    cases kind with
    | scalar tag text isPlain => exact ⟨.scalar mark tag text isPlain, rfl⟩
    | aliased number => exact ⟨.aliased mark number, rfl⟩
    | _ => cases hitem
  sequence start finish nodes hstart hfinish := by
    obtain ⟨kind, mark⟩ := start
    obtain ⟨last, behind⟩ := finish
    cases kind <;> cases hstart
    cases last <;> cases hfinish
    next tag =>
    refine ⟨.sequence mark behind tag nodes, ?_⟩
    rw [Node.items, itemsOfItems_eq]
    rfl
  mapping start finish entries hstart hfinish := by
    obtain ⟨kind, mark⟩ := start
    obtain ⟨last, behind⟩ := finish
    cases kind <;> cases hstart
    cases last <;> cases hfinish
    next tag =>
    refine ⟨.mapping mark behind tag entries, ?_⟩
    rw [Node.items, itemsOfEntries_eq]
    rfl

end Node

/-- Whether items for some parts have been appended. -/
def Appends (before after : Collecting) (parts : List Nesting.Part) : Prop :=
  after.reversed.map Item.part? = (parts.map some).reverse ++ before.reversed.map Item.part?

theorem Appends.cons {before between after : Collecting} {item : Item} {part : Nesting.Part}
    {parts : List Nesting.Part} (hbetween : between.reversed = item :: before.reversed)
    (hitem : item.part? = some part) (happends : Appends between after parts) :
    Appends before after (part :: parts) := by
  rw [Appends] at happends ⊢
  rw [happends, hbetween, List.map_cons, List.map_cons, hitem, List.reverse_cons,
    List.append_assoc, List.singleton_append]

theorem reversed_register (state : Collecting) (anchor : Option (List Char)) :
    (state.register anchor).reversed = state.reversed := by
  cases anchor <;> rfl

/-- Collecting goes on behind events that end nothing, with their parts appended, unless an alias
has no anchor. -/
theorem collect_append (fault : Option Fault) (rest : List Event) {front : List Event}
    (hinside : ∀ event ∈ front, event.isEnd = false) (state : Collecting) :
    (collect fault state (front ++ rest)).1.error ≠ none ∨
      ∃ after, collect fault state (front ++ rest) = collect fault after rest ∧
        Appends state after (front.filterMap Event.part?) := by
  induction front generalizing state with
  | nil => exact .inr ⟨state, rfl, rfl⟩
  | cons event front ih =>
      obtain ⟨hevent, hfront⟩ := List.forall_mem_cons.mp hinside
      replace ih := ih hfront
      -- what is pushed for the event stands in front of what is pushed for the others
      have hpush : ∀ between item part, between.reversed = item :: state.reversed →
          item.part? = some part → event.part? = some part →
          (collect fault between (front ++ rest)).1.error ≠ none ∨
            ∃ after, collect fault between (front ++ rest) = collect fault after rest ∧
              Appends state after ((event :: front).filterMap Event.part?) := by
        intro between item part hbetween hitem hpart
        refine (ih between).imp_right ?_
        rintro ⟨after, hafter, happends⟩
        rw [List.filterMap_cons_some hpart]
        exact ⟨after, hafter, happends.cons hbetween hitem⟩
      obtain ⟨kind, mark⟩ := event
      rw [List.cons_append, collect]
      cases kind with
      | streamStart | documentStart => exact ih state
      | streamEnd | documentEnd => contradiction
      | scalar anchor tag text isPlain =>
          exact hpush _ _ _ (congrArg (_ :: ·) (reversed_register state anchor)) rfl rfl
      | aliased name =>
          dsimp only
          split
          · exact hpush _ _ _ rfl rfl rfl
          · exact .inl (Option.some_ne_none _)
      | sequenceStart anchor tag | mappingStart anchor tag =>
          exact hpush _ _ _ (congrArg (_ :: ·) (reversed_register state anchor)) rfl rfl
      | sequenceEnd | mappingEnd => exact hpush _ _ _ rfl rfl rfl

theorem error_of_value {value : Value} (hvalue : document.value = .ok value) :
    document.error = none := by
  unfold Items.value at hvalue
  split at hvalue
  · contradiction
  · split at hvalue
    · contradiction
    · next hnone => exact hnone

/-- Where no document is, null is read. -/
theorem null_of_void {document : Items} {mark : Mark} {value : Value}
    (hitems : document.items = [{ kind := .void, mark }]) (hvalue : document.value = .ok value) :
    value = .null := by
  have herror := error_of_value hvalue
  unfold Items.value at hvalue
  rw [hitems] at hvalue
  have hrun : (readNode document greatestDepth []).run
      { rest := [{ kind := .void, mark }], jumps := 0 } = .ok (.null, { rest := [], jumps := 0 }) :=
    rfl
  rw [hrun, herror] at hvalue
  exact (Except.ok.inj hvalue).symm

/-- The items of a text that gives a value are those of a tree, unless it holds no document. -/
theorem exists_tree_of_value {text : String} {value : Value}
    (hvalue : (collect (EventList.ofText text).fault .start
      (EventList.ofText text).events).1.value = .ok value) :
    value = .null ∨ ∃ node : Node, (collect (EventList.ofText text).fault .start
      (EventList.ofText text).events).1.items = node.items := by
  generalize hdocument : collect (EventList.ofText text).fault .start
    (EventList.ofText text).events = collected at hvalue ⊢
  obtain ⟨document, more⟩ := collected
  have herror := error_of_value hvalue
  rcases isNode_events text with hbroken | hvoid | ⟨front, hends, hnode⟩
  · -- a parse that breaks off leaves an error, and then there is no value
    have happend := collect_append (EventList.ofText text).fault [] hbroken.inside .start
    rw [List.append_nil, hdocument] at happend
    rcases happend with hsome | ⟨after, hafter, -⟩
    · exact absurd herror hsome
    · obtain ⟨rfl, -⟩ := Prod.mk.inj hafter
      exact absurd (Option.map_eq_none_iff.mp herror) hbroken.fault
  · -- a stream without a document is read as null
    obtain ⟨first, others, hevents, hfirst, hothers⟩ := List.map_eq_cons_iff.mp hvoid
    obtain ⟨second, behind, rfl, hsecond, hbehind⟩ := List.map_eq_cons_iff.mp hothers
    obtain rfl := List.map_eq_nil_iff.mp hbehind
    rw [hevents, collect, hfirst] at hdocument
    simp only [collect, hsecond] at hdocument
    obtain ⟨rfl, -⟩ := Prod.mk.inj hdocument
    exact .inl (null_of_void rfl hvalue)
  · -- up to the end of the first document the events are a node
    obtain ⟨mark, rest, hevents⟩ := hends.events
    have happend := collect_append (EventList.ofText text).fault
      ({ kind := .documentEnd, mark } :: rest) hends.inside .start
    rw [← hevents, hdocument] at happend
    rcases happend with hsome | ⟨after, hafter, happends⟩
    · exact absurd herror hsome
    · obtain ⟨rfl, -⟩ := Prod.mk.inj hafter
      have hparts : after.reversed.reverse.map Item.part? =
          (front.filterMap Event.part?).map some := by
        rw [List.map_reverse, happends]
        simp [Collecting.start]
      obtain ⟨node, hitems⟩ := hnode.exists_tree Node.draws hparts
      rw [List.map_id] at hitems
      exact .inr ⟨node, hitems.symm⟩

end RamlCheck.Yaml
