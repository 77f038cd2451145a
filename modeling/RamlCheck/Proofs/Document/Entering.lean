import RamlCheck.Document.Entry
import RamlCheck.Proofs.Outline.Tree

/-!
# When a document is entered

A document whose text can be read for values is entered, unless its text for positions
has something that an outline cannot hold.  That text has a fault, or it holds no node, or
it is a tree; then what an outline cannot hold is the first anchor, tag or key that is no
scalar, or a root that is no mapping (`load_of_tree`).

Anchors and tags are blanked for this purpose, but only where the scan of the text finds
them.  It does not inside of what it takes for a quoted scalar: `anchor_behind_apostrophe`
is a document that is read for values and then refused for an anchor.
-/

namespace RamlCheck.Document

variable {name directory content : String} {header : Header} {value : Yaml.Value}

theorem exists_ok {Error Value : Type} {result : Except Error Value}
    (hsome : result.toOption.isSome = true) : ∃ value, result = .ok value := by
  cases result with
  | ok value => exact ⟨value, rfl⟩
  | error => contradiction

/-- What passes a test is there. -/
theorem exists_of_any {Error Value : Type} {result : Except Error Value} {test : Value → Bool}
    (hany : result.toOption.any test = true) : ∃ value, result = .ok value ∧ test value = true := by
  cases result with
  | ok value => exact ⟨value, rfl, hany⟩
  | error => contradiction

theorem rootOf_of_refused {fault : Outline.Fault}
    (hread : Outline.read (Include.positionsText content) = .error fault) :
    rootOf content = .error (.outline fault) := by
  unfold rootOf
  split
  · next other hother => rw [Except.error.inj (hother.symm.trans hread)]
  · next outline houtline => exact absurd (houtline.symm.trans hread) (by simp)

theorem rootOf_of_void (hread : Outline.read (Include.positionsText content) = .ok none) :
    rootOf content = .error .rootNotMapping := by
  unfold rootOf
  split
  · next fault hfault => exact absurd (hfault.symm.trans hread) (by simp)
  · next other hother =>
    rw [Except.ok.inj (hother.symm.trans hread)]
    rfl

theorem rootOf_of_outline {outline : Outline} {root : List (Label × Outline)}
    (hread : Outline.read (Include.positionsText content) = .ok (some outline))
    (hroot : outline.entries? = some root) : rootOf content = .ok root := by
  unfold rootOf
  split
  · next fault hfault => exact absurd (hfault.symm.trans hread) (by simp)
  · next other hother =>
    rw [Except.ok.inj (hother.symm.trans hread), Option.bind_some, hroot]

/-- The events of a document as it is read for positions. -/
def positionEvents (content : String) : Outline.EventList :=
  .ofText (Include.positionsText content)

/-- A document that holds no node for positions. -/
structure IsVoid (content : String) : Prop where
  fault : (positionEvents content).fault = none
  kinds : (positionEvents content).events.map Outline.Event.kind = [.streamStart, .streamEnd]

/-- A document that is a tree for positions. -/
structure IsTree (content : String) (node : Outline.Node) (rest : List Outline.Event) : Prop where
  fault : (positionEvents content).fault = none
  events : Outline.shownParts (positionEvents content).events = node.events ++ rest

/-- A document without a fault is a tree for positions, unless it holds no node. -/
theorem isVoid_or_isTree (hfault : (positionEvents content).fault = none) :
    IsVoid content ∨ ∃ node, IsTree content node [] := by
  refine (Outline.exists_tree_of_text hfault).imp (⟨hfault, ·⟩) ?_
  rintro ⟨node, hnode⟩
  exact ⟨node, hfault, hnode.trans (List.append_nil _).symm⟩

/-- A document with a header and a mapping as its value is entered, unless its text for
positions has a fault, or holds no node, or is a tree with something in it that an outline
cannot hold.  What comes first of this is what it is refused for. -/
theorem load_of_tree (hheader : headerOf (withoutByteOrderMark content) = .ok header)
    (hvalue : valueOf (withoutByteOrderMark content) = .ok value) :
    ((∃ fault, (positionEvents (withoutByteOrderMark content)).fault = some fault) ∨
        IsVoid (withoutByteOrderMark content) ∨
          ∃ node, IsTree (withoutByteOrderMark content) node []) ∧
      (∀ fault, (positionEvents (withoutByteOrderMark content)).fault = some fault →
        load name directory content = .error (.outline fault)) ∧
      (IsVoid (withoutByteOrderMark content) →
        load name directory content = .error .rootNotMapping) ∧
      ∀ node rest, IsTree (withoutByteOrderMark content) node rest →
        (∀ fault, node.rootRefusal? = some fault →
          load name directory content = .error (.outline fault)) ∧
        (node.rootRefusal? = none →
          ∃ document, load name directory content = .ok document ∧ document.value = value ∧
            node.outline.entries? = some document.root) := by
  -- header and value are there, so only the root can be refused
  have hrefused : ∀ {error}, rootOf (withoutByteOrderMark content) = .error error →
      load name directory content = .error error := by
    intro error hroot
    simp only [load, hheader, hvalue, hroot]
    rfl
  refine ⟨?_, fun fault hfault => ?_, fun hvoid => ?_, fun node rest htree => ?_⟩
  · cases hfault : (positionEvents (withoutByteOrderMark content)).fault with
    | some fault => exact .inl ⟨fault, rfl⟩
    | none => exact .inr (isVoid_or_isTree hfault)
  · exact hrefused (rootOf_of_refused (Outline.read_of_fault hfault))
  · exact hrefused (rootOf_of_void (Outline.read_of_void hvoid.fault hvoid.kinds))
  · have hread := Outline.read_of_events htree.fault htree.events
    constructor
    · intro fault hnode
      rw [hnode] at hread
      exact hrefused (rootOf_of_refused hread)
    · intro hnode
      rw [hnode] at hread
      obtain ⟨root, hroot⟩ := Option.isSome_iff_exists.mp (Outline.Node.entries?_outline hnode)
      let includes := Include.includesOf (withoutByteOrderMark content)
      refine ⟨{ name, directory, header, root, value, includes }, ?_, rfl, hroot⟩
      simp only [load, hheader, hvalue, rootOf_of_outline hread hroot]
      rfl

/-- An anchor and an alias that the scan finds do not keep a document out. -/
theorem load_with_anchor :
    ∃ document, load "api.raml" "" "#%RAML 1.0\ntitle: &a Notes\nbase: *a\n" = .ok document ∧
      document.root.map (fun entry => (entry.1.text, entry.1.place)) =
        [("title", { line := 2, column := 1 }), ("base", { line := 3, column := 1 })] := by
  let content := withoutByteOrderMark "#%RAML 1.0\ntitle: &a Notes\nbase: *a\n"
  let node : Outline.Node :=
    .mapping { index := 16, line := 1, column := 5 } { index := 38, line := 3, column := 0 } .none
      [(.scalar { index := 11, line := 1, column := 0 } .none "title".toList,
          .scalar { index := 21, line := 1, column := 10 } .none "Notes".toList),
        (.scalar { index := 27, line := 2, column := 0 } .none "base".toList,
          .scalar { index := 33, line := 2, column := 6 } .none "*a".toList)]
  have hheader : (headerOf content).toOption.isSome = true := by decide +kernel
  have hvalue : (valueOf content).toOption.isSome = true := by decide +kernel
  have htree : IsTree content node [] := ⟨by decide +kernel, by decide +kernel⟩
  have hroot : node.outline.entries?.map (·.map fun entry => (entry.1.text, entry.1.place)) =
      some [("title", { line := 2, column := 1 }), ("base", { line := 3, column := 1 })] := by
    decide +kernel
  obtain ⟨header, hheader⟩ := exists_ok hheader
  obtain ⟨value, hvalue⟩ := exists_ok hvalue
  obtain ⟨document, hload, -, hentries⟩ :=
    ((load_of_tree hheader hvalue).2.2.2 node [] htree).2 (by decide +kernel)
  rw [hentries, Option.map_some] at hroot
  exact ⟨document, hload, Option.some.inj hroot⟩

/-- An apostrophe in a line that goes on with a plain scalar is taken for an opening quote,
so that the scan finds no anchor behind it.  The document is read for values, and refused
for that anchor. -/
theorem anchor_behind_apostrophe :
    (valueOf "#%RAML 1.0\ntitle: rock\n  'n roll\nbase: &b 1\n").toOption.any
        (·.same (.mapping [(.string "title", .string "rock 'n roll"),
          (.string "base", .number (.integer 1))])) = true ∧
      (match load "api.raml" "" "#%RAML 1.0\ntitle: rock\n  'n roll\nbase: &b 1\n" with
        | .error (.outline fault) => some fault.problem
        | _ => none) = some .anchorUsed := by
  constructor <;> decide +kernel

end RamlCheck.Document
