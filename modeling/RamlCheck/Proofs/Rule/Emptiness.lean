import RamlCheck.Proofs.Document.Entering
import RamlCheck.Proofs.Document.Loading
import RamlCheck.Proofs.Rule.Spelling
import RamlCheck.Proofs.Yaml.Tree
import RamlCheck.Proofs.Yaml.Way
import RamlCheck.Rule.Basic

/-!
# Scalars that are left empty

As a value, a scalar is empty if it is null or the empty text.  The rules know nothing but its
text, so they take it for empty if that is one way of writing null.  About some scalars they
are wrong (`misread`): null in capitals is not empty to them, and a text in quotes that reads
`~` or `null` is.  About all others they agree with the values, wherever in a document these
stand (`Rule.emptiness_of_tree`).

## Strategy

For a single scalar both sides are a list of spellings, since nothing else means null
(`Yaml.isEmpty_of_scalarValue`).  A document is read twice, for its value and for its outline,
and each time as a tree (`Document.exists_hasItems`, `Document.exists_isTree`).  If it is the
same tree, its scalars are compared one by one, by induction on that tree
(`Yaml.Node.emptyAlike_of_means`).
-/

namespace RamlCheck

open Yaml (Value)

namespace Yaml

/-- Whether a value is null or the empty text. -/
def Value.isEmpty : Value → Bool
  | .null => true
  | .string text => text = ""
  | _ => false

variable {path : List Segment} {mark : Mark} {text : String} {isPlain : Bool} {value : Value}

/-- The spellings of null. -/
theorem Scalar.isNull_iff : isNull text.toList = true ↔ text ∈ ["null", "Null", "NULL", "~"] := by
  simp only [isNull, isOneOf, List.any_cons, List.any_nil, Bool.or_false, Bool.or_eq_true,
    decide_eq_true_eq, String.toList_inj, List.mem_cons, List.not_mem_nil, or_false,
    eq_comm (b := text)]

/-- What a text means that writes a whole number is a number. -/
theorem Scalar.exists_number_of_integer? {chars : List Char}
    (hinteger : integer? chars = some (.value value)) : ∃ number, value = .number number := by
  unfold integer? at hinteger
  repeat' split at hinteger
  all_goals cases hinteger
  · exact ⟨_, rfl⟩
  · exact ⟨_, rfl⟩

/-- Nothing but null means null, and only an empty text is one. -/
theorem Scalar.isEmpty_of_resolve {chars : List Char} (hchars : chars ≠ [])
    (hnull : isNull chars = false) (hresolve : resolve chars = .value value) :
    value.isEmpty = false := by
  unfold resolve at hresolve
  rw [if_neg (by simp [hchars, hnull])] at hresolve
  split at hresolve
  · obtain rfl := Resolved.value.inj hresolve
    rfl
  · next resolved hinteger =>
    obtain ⟨number, rfl⟩ := exists_number_of_integer? (hresolve ▸ hinteger)
    rfl
  · split at hresolve
    · obtain rfl := Resolved.value.inj hresolve
      rfl
    · obtain rfl := Resolved.value.inj hresolve
      -- what is left of plain scalars is a text, and this one is not empty
      have htext : String.ofList chars ≠ "" := fun htext =>
        hchars (by rw [← String.toList_ofList (l := chars), htext]; rfl)
      simp [Value.isEmpty, htext]

/-- A plain scalar is empty if nothing is written, or null. -/
theorem isEmpty_of_untagged (hvalue : untagged path mark text.toList = .ok value) :
    value.isEmpty = decide (text ∈ ["", "null", "Null", "NULL", "~"]) := by
  rw [Bool.eq_iff_iff, decide_eq_true_iff, List.mem_cons, ← Scalar.isNull_iff]
  unfold untagged at hvalue
  split at hvalue
  · next resolved hresolve =>
    obtain rfl := Except.ok.inj hvalue
    by_cases hnull : text = "" ∨ Scalar.isNull text.toList = true
    · simp only [hnull, iff_true]
      rw [Scalar.resolve, if_pos (by simpa using hnull)] at hresolve
      obtain rfl := Resolved.value.inj hresolve
      rfl
    · simp only [hnull, iff_false, Bool.not_eq_true]
      obtain ⟨htext, hnull⟩ := not_or.mp hnull
      exact Scalar.isEmpty_of_resolve (by simpa using htext) (by simpa using hnull) hresolve
  · contradiction

/-- A scalar without a tag is empty if nothing is written, or null without quotes. -/
theorem isEmpty_of_scalarValue
    (hvalue : scalarValue path mark false none text.toList isPlain = .ok value) :
    value.isEmpty =
      decide (text = "" ∨ isPlain = true ∧ text ∈ ["null", "Null", "NULL", "~"]) := by
  simp only [scalarValue, Bool.false_eq_true, if_false] at hvalue
  cases isPlain with
  | true =>
      rw [isEmpty_of_untagged (by simpa using hvalue), decide_eq_decide, List.mem_cons]
      simp
  | false =>
      obtain rfl := Except.ok.inj hvalue
      simp [Value.isEmpty]

end Yaml

/-- Whether the rules are wrong about a scalar: it is null in capitals, or reads as null and is
in quotes. -/
def misread (text : String) (isPlain : Bool) : Bool :=
  if isPlain then text ∈ ["Null", "NULL"] else text ∈ ["~", "null"]

/-- A scalar is empty to the rules if its value is, unless they misread it: then it is the other
way about. -/
theorem Outline.isEmptyValue_of_scalarValue {path : List Yaml.Segment} {mark : Yaml.Mark}
    (label : Label) {isPlain : Bool} {value : Value}
    (hvalue : Yaml.scalarValue path mark false none label.text.toList isPlain = .ok value) :
    (Outline.scalar label).isEmptyValue = (value.isEmpty ^^ misread label.text isPlain) := by
  rw [Yaml.isEmpty_of_scalarValue hvalue, Bool.eq_iff_iff, isEmptyValue_scalar, misread]
  by_cases hempty : label.text ∈ ["", "~", "null", "Null", "NULL"]
  · generalize label.text = text at hempty
    simp only [List.mem_cons, List.not_mem_nil, or_false] at hempty
    obtain rfl | rfl | rfl | rfl | rfl := hempty <;> cases isPlain <;> decide
  · simp only [List.mem_cons, List.not_mem_nil, or_false, not_or] at hempty ⊢
    cases isPlain <;> simp [hempty]

/-! ## Trees that both readers see -/

namespace Yaml.Node

mutual

/-- Whether a tree is shown by one for positions: its scalars have the same texts there, and an
alias is some scalar. -/
def ShownBy : Yaml.Node → Outline.Node → Prop
  | .scalar _ _ text _, .scalar _ _ shown => shown = text
  | .aliased _ _, .scalar _ _ _ => True
  | .sequence _ _ _ nodes, .sequence _ _ _ items => ItemsShownBy nodes items
  | .mapping _ _ _ nodes, .mapping _ _ _ entries => EntriesShownBy nodes entries
  | _, _ => False

/-- Whether the nodes of a sequence are shown by others. -/
def ItemsShownBy : List Yaml.Node → List Outline.Node → Prop
  | [], [] => True
  | node :: nodes, item :: items => ShownBy node item ∧ ItemsShownBy nodes items
  | _, _ => False

/-- Whether the entries of a mapping are shown by others. -/
def EntriesShownBy :
    List (Yaml.Node × Yaml.Node) → List (Outline.Node × Outline.Node) → Prop
  | [], [] => True
  | (key, node) :: nodes, (label, item) :: entries =>
      (ShownBy key label ∧ ShownBy node item) ∧ EntriesShownBy nodes entries
  | _, _ => False

end

/-- Whether a key reads as some text.  About collections and aliases nothing is said. -/
def Spells : Yaml.Node → String → Prop
  | .scalar _ _ text _, spelled => spelled = String.ofList text
  | _, _ => True

/-- An entry of a mapping and its value, the key of which reads as some text. -/
inductive EntryMeans : List (Yaml.Node × Yaml.Node) → List (Value × Value) → String →
    Yaml.Node → Value → Prop
  | intro {nodes : List (Yaml.Node × Yaml.Node)} {values : List (Value × Value)} {index : Nat}
      {key node : Yaml.Node} {text : String} {keyValue value : Value}
      (hnode : nodes[index]? = some (key, node))
      (hvalue : values[index]? = some (keyValue, value)) (hspells : key.Spells text)
      (hkey : key.Means keyValue) : EntryMeans nodes values text node value

mutual

/-- Whether the scalars of a tree that have no tag are empty in an outline and as values alike,
except for those that are misread. -/
inductive EmptyAlike : Yaml.Node → Outline → Value → Prop
  | scalar {mark : Mark} {text : List Char} {isPlain : Bool} {label : Label} {value : Value}
      (hempty : (Outline.scalar label).isEmptyValue =
        (value.isEmpty ^^ misread (String.ofList text) isPlain)) :
      EmptyAlike (.scalar mark none text isPlain) (.scalar label) value
  | tagged {mark : Mark} {tag : Tag} {text : List Char} {isPlain : Bool} {label : Label}
      {value : Value} : EmptyAlike (.scalar mark (some tag) text isPlain) (.scalar label) value
  | aliased {mark : Mark} {number : Nat} {label : Label} {value : Value} :
      EmptyAlike (.aliased mark number) (.scalar label) value
  | sequence {start finish : Mark} {tag : Option Tag} {nodes : List Yaml.Node}
      {items : List Outline} {values : List Value} (hitems : ItemsEmptyAlike nodes items values) :
      EmptyAlike (.sequence start finish tag nodes) (.sequence items)
        (underTag tag (.sequence values))
  | mapping {start finish : Mark} {tag : Option Tag} {nodes : List (Yaml.Node × Yaml.Node)}
      {entries : List (Label × Outline)} {values : List (Value × Value)}
      (hentries : ∀ entry ∈ entries, EntryEmptyAlike nodes entry values) :
      EmptyAlike (.mapping start finish tag nodes) (.mapping entries)
        (underTag tag (.mapping values))

/-- Whether this holds of each node of a sequence. -/
inductive ItemsEmptyAlike : List Yaml.Node → List Outline → List Value → Prop
  | nil : ItemsEmptyAlike [] [] []
  | cons {node : Yaml.Node} {nodes : List Yaml.Node} {item : Outline} {items : List Outline}
      {value : Value} {values : List Value} (hitem : EmptyAlike node item value)
      (hitems : ItemsEmptyAlike nodes items values) :
      ItemsEmptyAlike (node :: nodes) (item :: items) (value :: values)

/-- Whether an entry of an outline comes from one of a mapping that is read so. -/
inductive EntryEmptyAlike :
    List (Yaml.Node × Yaml.Node) → Label × Outline → List (Value × Value) → Prop
  | intro {nodes : List (Yaml.Node × Yaml.Node)} {values : List (Value × Value)} {label : Label}
      {node : Yaml.Node} {outline : Outline} {value : Value}
      (hentry : EntryMeans nodes values label.text node value)
      (halike : EmptyAlike node outline value) : EntryEmptyAlike nodes (label, outline) values

end

/-- A mapping of an outline comes from one of the tree. -/
theorem EmptyAlike.of_mapping {node : Yaml.Node} {entries : List (Label × Outline)}
    {value : Value} (halike : EmptyAlike node (.mapping entries) value) :
    ∃ start finish tag nodes values, node = .mapping start finish tag nodes ∧
      value = underTag tag (.mapping values) ∧
      ∀ entry ∈ entries, EntryEmptyAlike nodes entry values := by
  cases halike with
  | mapping hentries => exact ⟨_, _, _, _, _, rfl, rfl, hentries⟩

/-- Behind one more entry nothing changes. -/
theorem EntryEmptyAlike.behind {nodes : List (Yaml.Node × Yaml.Node)}
    {entry : Label × Outline} {values : List (Value × Value)}
    (hentry : EntryEmptyAlike nodes entry values) (first : Yaml.Node × Yaml.Node)
    (value : Value × Value) : EntryEmptyAlike (first :: nodes) entry (value :: values) := by
  cases hentry with
  | intro hentry halike =>
      cases hentry with
      | @intro index _ _ _ _ _ hnode hvalue hspells hkey =>
          refine .intro ?_ halike
          exact .intro (List.getElem?_cons_succ.trans hnode)
            (List.getElem?_cons_succ.trans hvalue) hspells hkey

end Yaml.Node

/-- An entry that has been inserted was there before, or it is the new one. -/
theorem Outline.mem_insertEntry {entries : List (Label × Outline)} {key : Label}
    {value : Outline} {entry : Label × Outline} (hentry : entry ∈ insertEntry entries key value) :
    entry ∈ entries ∨ key.text = entry.1.text ∧ value = entry.2 := by
  unfold insertEntry at hentry
  split at hentry
  · rcases List.mem_append.mp hentry with hold | hnew
    · exact .inl hold
    · rw [List.mem_singleton.mp hnew]
      exact .inr ⟨rfl, rfl⟩
  · next known _ hfind =>
    have hknown : known.text = key.text := by simpa using List.find?_some hfind
    rcases List.mem_append.mp hentry with hold | hnew
    · exact .inl (List.mem_of_mem_filter hold)
    · rw [List.mem_singleton.mp hnew]
      exact .inr ⟨hknown.symm, rfl⟩

/-- Each entry of an outline has been there before, or comes from one of the tree. -/
theorem Outline.Node.mem_outlineEntries {done : List (Label × Outline)}
    {entries : List (Outline.Node × Outline.Node)} {entry : Label × Outline}
    (hentry : entry ∈ outlineEntries done entries) :
    entry ∈ done ∨
      ∃ source ∈ entries, source.1.label.text = entry.1.text ∧ source.2.outline = entry.2 := by
  induction entries generalizing done with
  | nil => exact .inl hentry
  | cons source entries ih =>
      obtain ⟨key, value⟩ := source
      rcases ih hentry with hdone | ⟨other, hother, hsame⟩
      · rcases mem_insertEntry hdone with hold | hnew
        · exact .inl hold
        · exact .inr ⟨(key, value), List.mem_cons_self, hnew⟩
      · exact .inr ⟨other, List.mem_cons_of_mem _ hother, hsame⟩

namespace Yaml.Node

/-- A key is spelled as it is shown. -/
theorem ShownBy.spells {key : Yaml.Node} {shown : Outline.Node} (hshown : key.ShownBy shown) :
    key.Spells shown.label.text := by
  cases key with
  | scalar mark tag text isPlain =>
      cases shown with
      | scalar mark' properties shown =>
          obtain rfl : shown = text := hshown
          rfl
      | sequence | mapping => exact False.elim hshown
  | aliased | sequence | mapping => trivial

mutual

/-- What a tree means and what it is shown by agree on which of its scalars are empty, except
for those that are misread. -/
theorem emptyAlike_of_means : ∀ {node : Yaml.Node} {shown : Outline.Node} {value : Value},
    node.ShownBy shown → node.Means value → node.EmptyAlike shown.outline value
  | .scalar mark none text isPlain, .scalar mark' properties shown, value, hshown, hmeans => by
      obtain ⟨path, place, inner, rfl, hscalar⟩ := hmeans
      obtain rfl : shown = text := hshown
      refine .scalar ?_
      rw [← String.toList_ofList (l := shown)] at hscalar
      exact Outline.isEmptyValue_of_scalarValue (Outline.labelAt mark' shown) hscalar
  | .scalar mark (some tag) text isPlain, .scalar _ _ _, value, _, _ => .tagged
  | .aliased mark number, .scalar _ _ _, value, _, _ => .aliased
  | .sequence start finish tag nodes, .sequence _ _ _ items, value, hshown, hmeans => by
      obtain ⟨values, rfl, hvalues⟩ := hmeans
      exact .sequence (itemsEmptyAlike_of_means hshown hvalues)
  | .mapping start finish tag nodes, .mapping _ _ _ entries, value, hshown, hmeans => by
      obtain ⟨values, rfl, hvalues⟩ := hmeans
      refine .mapping fun entry hentry => ?_
      -- an entry of the outline comes from one of the tree, whatever keys are repeated
      rcases Outline.Node.mem_outlineEntries hentry with hnone | ⟨source, hsource, hkey, hitem⟩
      · exact absurd hnone List.not_mem_nil
      · obtain ⟨label, item⟩ := entry
        obtain rfl : source.2.outline = item := hitem
        exact entryEmptyAlike_of_means hshown hvalues hsource hkey

theorem itemsEmptyAlike_of_means : ∀ {nodes : List Yaml.Node} {items : List Outline.Node}
    {values : List Value}, ItemsShownBy nodes items → MeansItems nodes values →
    ItemsEmptyAlike nodes (Outline.Node.outlineItems items) values
  | [], [], [], _, _ => .nil
  | _ :: _, _ :: _, _ :: _, hshown, hmeans =>
      .cons (emptyAlike_of_means hshown.1 hmeans.1)
        (itemsEmptyAlike_of_means hshown.2 hmeans.2)

theorem entryEmptyAlike_of_means : ∀ {nodes : List (Yaml.Node × Yaml.Node)}
    {entries : List (Outline.Node × Outline.Node)} {values : List (Value × Value)},
    EntriesShownBy nodes entries → MeansEntries nodes values → ∀ {source}, source ∈ entries →
    ∀ {label : Label}, source.1.label.text = label.text →
      EntryEmptyAlike nodes (label, source.2.outline) values
  | [], [], [], _, _, _, hsource, _, _ => absurd hsource List.not_mem_nil
  | (key, node) :: nodes, (shown, item) :: entries, (keyValue, value) :: values, hshown, hmeans,
      source, hsource, label, hlabel => by
      rcases List.mem_cons.mp hsource with rfl | hsource
      · have hspells : key.Spells label.text := hlabel ▸ hshown.1.1.spells
        exact .intro (@EntryMeans.intro _ _ 0 _ _ _ _ _ rfl rfl hspells hmeans.1.1)
          (emptyAlike_of_means hshown.1.2 hmeans.1.2)
      · exact (entryEmptyAlike_of_means hshown.2 hmeans.2 hsource hlabel).behind _ _

end

end Yaml.Node

/-! ## Documents -/

namespace Document

/-- A document whose items are those of a tree. -/
def HasItems (content : String) (node : Yaml.Node) (rest : List Yaml.Item) : Prop :=
  let events := Yaml.EventList.ofText (Include.valuesText content)
  (Yaml.collect events.fault .start events.events).1.items = node.items ++ rest

variable {name directory content : String} {document : Document} {node : Yaml.Node}
  {shown : Outline.Node} {items : List Yaml.Item} {events : List Outline.Event}

/-- The value of a document that has been entered is one that its tree means. -/
theorem means_of_load (hload : load name directory content = .ok document)
    (hvalues : HasItems (withoutByteOrderMark content) node items) :
    node.Means document.value :=
  Yaml.Items.means_of_value hvalues (Yaml.value_of_read (values_of_load hload))

/-- A document that has been entered is a tree as it is read for values. -/
theorem exists_hasItems (hload : load name directory content = .ok document) :
    ∃ node, HasItems (withoutByteOrderMark content) node [] := by
  obtain ⟨entries, hmapping⟩ := value_of_load hload
  rcases Yaml.exists_tree_of_value (Yaml.value_of_read (values_of_load hload)) with
    hnull | ⟨node, hitems⟩
  · exact absurd (hnull.symm.trans hmapping) (by simp)
  · exact ⟨node, hitems.trans (List.append_nil _).symm⟩

/-- A document that has been entered is a tree as it is read for positions. -/
theorem exists_isTree (hload : load name directory content = .ok document) :
    ∃ shown, IsTree (withoutByteOrderMark content) shown [] := by
  have hread := outline_of_load hload
  cases hfault : (positionEvents (withoutByteOrderMark content)).fault with
  | some fault => exact absurd (hread.symm.trans (Outline.read_of_fault hfault)) (by simp)
  | none =>
      rcases isVoid_or_isTree hfault with hvoid | htree
      · exact absurd (hread.symm.trans (Outline.read_of_void hvoid.fault hvoid.kinds)) (by simp)
      · exact htree

/-- The root of a document that has been entered is the outline of its tree for positions. -/
theorem outline_eq_of_load (hload : load name directory content = .ok document)
    (hshown : IsTree (withoutByteOrderMark content) shown events) :
    shown.outline = .mapping document.root := by
  have hread := outline_of_load hload
  rw [Outline.read_of_events hshown.fault hshown.events] at hread
  cases hroot : shown.rootRefusal? with
  | some fault => rw [hroot] at hread; contradiction
  | none =>
      rw [hroot] at hread
      exact Option.some.inj (Except.ok.inj hread)

end Document

namespace Rule

open Yaml.Node

variable {name directory content : String} {document : Document} {node : Yaml.Node}
  {shown : Outline.Node} {items : List Yaml.Item} {events : List Outline.Event}

/-- A document that has been entered is a tree both as it is read for values and as it is read for
positions.  If one shows the other, the rules and the values agree on which scalars are empty,
except for those that are misread.  So the title is reported as empty if its value is null or the
empty text, and not otherwise, unless it is misread: then it is the other way about. -/
theorem emptiness_of_tree (hload : Document.load name directory content = .ok document) :
    (∃ node shown, Document.HasItems (Document.withoutByteOrderMark content) node [] ∧
      Document.IsTree (Document.withoutByteOrderMark content) shown []) ∧
    ∀ node items shown events,
      Document.HasItems (Document.withoutByteOrderMark content) node items →
      Document.IsTree (Document.withoutByteOrderMark content) shown events →
      node.ShownBy shown →
      node.EmptyAlike (.mapping document.root) document.value ∧
        ∀ files key item, Outline.entryOf? "title" document.root = some (key, item) →
          ∃ start finish tag nodes values source typed,
            node = .mapping start finish tag nodes ∧
            document.value = Yaml.underTag tag (.mapping values) ∧
            EntryMeans nodes values "title" source typed ∧
            ∀ mark text isPlain, source = .scalar mark none text isPlain →
              title.check files document =
                if typed.isEmpty ^^ misread (String.ofList text) isPlain then
                  [document.findingAt key.place .error "Property 'title' must not be empty"]
                else [] := by
  obtain ⟨node, hnode⟩ := Document.exists_hasItems hload
  obtain ⟨shown, hshown⟩ := Document.exists_isTree hload
  refine ⟨⟨node, shown, hnode, hshown⟩, ?_⟩
  clear hnode hshown node shown
  intro node items shown events hvalues hshown hsame
  have halike := emptyAlike_of_means hsame (Document.means_of_load hload hvalues)
  rw [Document.outline_eq_of_load hload hshown] at halike
  refine ⟨halike, ?_⟩
  intro files key item htitle
  -- the rule looks at the outline, and the outline is as empty as the tree
  have hcheck : title.check files document = if item.isEmptyValue then
      [document.findingAt key.place .error "Property 'title' must not be empty"] else [] := by
    show titleFindings document = _
    rw [titleFindings, htitle]
  obtain ⟨start, finish, tag, nodes, values, rfl, hvalue, hentries⟩ := halike.of_mapping
  have hmem : (key, item) ∈ document.root := List.mem_of_find?_eq_some htitle
  have hkey : key.text = "title" := by simpa using List.find?_some htitle
  cases hentries _ hmem with
  | @intro _ _ _ source _ typed hentry hitem =>
      refine ⟨start, finish, tag, nodes, values, source, typed, rfl, hvalue, hkey ▸ hentry, ?_⟩
      rintro mark text isPlain rfl
      cases hitem with
      | scalar hempty => rw [hcheck, hempty]

/-- A document with null in capitals, as such, and in quotes. -/
def nulls : String :=
  "#%RAML 1.0\ntitle: NULL\nlist: [~, 'null']\n"

/-- The tree of that document as it is read for values. -/
def nullsTree : Yaml.Node :=
  .mapping { index := 11, line := 1, column := 0 } { index := 41, line := 3, column := 0 } none
    [(.scalar { index := 11, line := 1, column := 0 } none "title".toList true,
        .scalar { index := 18, line := 1, column := 7 } none "NULL".toList true),
      (.scalar { index := 23, line := 2, column := 0 } none "list".toList true,
        .sequence { index := 29, line := 2, column := 6 } { index := 39, line := 2, column := 16 }
          none [.scalar { index := 30, line := 2, column := 7 } none "~".toList true,
            .scalar { index := 33, line := 2, column := 10 } none "null".toList false])]

/-- The tree of that document as it is read for positions. -/
def nullsOutline : Outline.Node :=
  .mapping { index := 16, line := 1, column := 5 } { index := 41, line := 3, column := 0 } .none
    [(.scalar { index := 11, line := 1, column := 0 } .none "title".toList,
        .scalar { index := 18, line := 1, column := 7 } .none "NULL".toList),
      (.scalar { index := 23, line := 2, column := 0 } .none "list".toList,
        .sequence { index := 29, line := 2, column := 6 } { index := 39, line := 2, column := 16 }
          .none [.scalar { index := 30, line := 2, column := 7 } .none "~".toList,
            .scalar { index := 33, line := 2, column := 10 } .none "null".toList])]

/-- Its title is null in capitals, so it is not reported. -/
theorem emptiness_of_nulls :
    ∃ document, Document.load "api.raml" "" nulls = .ok document ∧
      nullsTree.EmptyAlike (.mapping document.root) document.value ∧
      (document.root.map fun entry => (entry.1.text, entry.2.isEmptyValue)) =
        [("title", false), ("list", false)] := by
  have hentered : (Document.load "api.raml" "" nulls).toOption.any (fun document =>
      (document.root.map fun entry => (entry.1.text, entry.2.isEmptyValue)) =
        [("title", false), ("list", false)]) = true := by decide +kernel
  have hvalues : Document.HasItems (Document.withoutByteOrderMark nulls) nullsTree [] := by
    unfold Document.HasItems
    decide +kernel
  have hshown : Document.IsTree (Document.withoutByteOrderMark nulls) nullsOutline [] :=
    ⟨by decide +kernel, by decide +kernel⟩
  have hsame : nullsTree.ShownBy nullsOutline := by
    simp [nullsTree, nullsOutline, ShownBy, EntriesShownBy, ItemsShownBy]
  obtain ⟨document, hload, hroot⟩ := Document.exists_of_any hentered
  obtain ⟨halike, -⟩ :=
    (emptiness_of_tree hload).2 nullsTree [] nullsOutline [] hvalues hshown hsame
  exact ⟨document, hload, halike, of_decide_eq_true hroot⟩

/-- The text `null` in quotes is a title, but is reported as an empty one.  Null in capitals is
none, and is not reported. -/
theorem titles_misread :
    (Document.load "api.raml" "" "#%RAML 1.0\ntitle: \"null\"\n").toOption.any (fun document =>
        document.value.same (.mapping [(.string "title", .string "null")]) &&
          decide (title.check (fun _ => .ok "") document =
            [document.findingAt { line := 2, column := 1 } .error
              "Property 'title' must not be empty"])) = true ∧
      (Document.load "api.raml" "" "#%RAML 1.0\ntitle: NULL\n").toOption.any (fun document =>
        document.value.same (.mapping [(.string "title", .null)]) &&
          decide (title.check (fun _ => .ok "") document = [])) = true := by
  constructor <;> decide +kernel

end Rule

end RamlCheck
