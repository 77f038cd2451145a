import RamlCheck.Proofs.Include.Copied
import RamlCheck.Proofs.Include.PlainText
import RamlCheck.Yaml.Document

/-!
# Where a block scalar in a sequence ends

A block scalar ends in front of the first line that is not indented more than the
collection in which its entry stands.  The scan of a text goes by the line of the header
instead: by the spaces at its start, and not by the dashes behind them.  So an entry below
the block scalar is scanned as one if and only if it is indented at most as much as that
line (`reference_behind_block`).

An item of a sequence begins behind its dash.  Its next entries are indented more than its
line, so after a block scalar they are copied, and a reference among them is lost:
`reference_lost_in_item` is a text that is read as an item with two entries.
-/

namespace RamlCheck.Include

variable {indent entry count : Nat} {key name indicators target content : List Char} {style : Char}

/-- A line that opens a block scalar: spaces, the dashes of sequences, a key and the
header. -/
def headerLine (indent count : Nat) (key : List Char) (style : Char) (indicators : List Char) :
    List Char :=
  List.replicate indent ' ' ++ (dashes count ++ (key ++ ':' :: ' ' :: style :: indicators))

/-- A line with a key and some value. -/
def entryLine (indent : Nat) (key value : List Char) : List Char :=
  List.replicate indent ' ' ++ (key ++ ':' :: ' ' :: value)

/-! ## The two lines -/

theorem walk_replicate (count depth : Nat) (rest : List Char) :
    walk indent (.fresh depth) (List.replicate count ' ' ++ rest) =
      (walk indent (.fresh depth) rest).prepend ((List.replicate count ' ').map .copied) :=
  walk_gaps (fun char hchar => by rw [List.eq_of_mem_replicate hchar]; rfl) rest

theorem leadingSpaces_replicate (hcontent : content.head? ≠ some ' ') :
    leadingSpaces (List.replicate indent ' ' ++ content) = indent := by
  have hspaces : ∀ char ∈ List.replicate indent ' ', decide (char = ' ') = true :=
    fun char hchar => by rw [List.eq_of_mem_replicate hchar]; rfl
  have hstops : ∀ char ∈ content.head?, decide (char = ' ') = false := by
    rintro char hchar
    exact decide_eq_false fun heq => hcontent (heq ▸ hchar)
  rw [leadingSpaces, (takeWhile_append_of_stops hspaces hstops).1, List.length_replicate]

theorem leadingSpaces_headerLine (hkey : IsKey key) :
    leadingSpaces (headerLine indent count key style indicators) = indent := by
  refine leadingSpaces_replicate ?_
  cases count with
  | zero =>
      rw [dashes, List.nil_append, List.head?_append_of_ne_nil _ hkey.head?_ne.1]
      exact hkey.head?_ne.2
  | succ count => exact fun hhead => absurd (Option.some.inj hhead) (by decide)

theorem leadingSpaces_entryLine (hkey : IsKey key) (value : List Char) :
    leadingSpaces (entryLine indent key value) = indent := by
  refine leadingSpaces_replicate ?_
  rw [List.head?_append_of_ne_nil _ hkey.head?_ne.1]
  exact hkey.head?_ne.2

/-- The walk comes to the value of an entry as it came to the entry. -/
theorem walk_entryLine (width : Nat) (hkey : IsKey key) (value : List Char) :
    walk width (.fresh 0) (entryLine indent key value) =
      (walk width (.fresh 0) value).prepend
        ((List.replicate indent ' ' ++ (key ++ [':', ' '])).map .copied) := by
  rw [entryLine, walk_replicate, walk_key hkey, ← prepend_append, ← List.map_append]

/-- The header of a block scalar leaves a block scalar open that is indented like its line. -/
theorem scanLine_headerLine (hkey : IsKey key) (hstyle : style = '|' ∨ style = '>')
    (hindicators : isBlockHeader indicators = true) :
    scanLine .start (headerLine indent count key style indicators) =
      Scan.copyRest (headerLine indent count key style indicators)
        { carry := .block indent, depth := 0 } := by
  have hstep : step indent (.fresh 0) style indicators = .stop (.block indent) :=
    (Advance.block rfl hstyle hindicators).step_eq
  rw [State.start, scanLine_nothing, leadingSpaces_headerLine hkey, headerLine, walk_replicate,
    walk_dashes, walk_key hkey, walk_stop hstep]
  simp [Scan.prepend, Scan.copyRest, Stance.fresh]

/-- An entry with a reference, scanned with nothing left open. -/
theorem walk_referenceLine (width : Nat) (hkey : IsKey key) (htarget_ne : target ≠ [])
    (htarget : ∀ char ∈ target, inTarget char = true) :
    walk width (.fresh 0) (entryLine indent key (includeTag ++ ' ' :: target)) =
      { pieces := (List.replicate indent ' ' ++ (key ++ [':', ' '])).map .copied ++
          [.reference [' '] target]
        after := .start } := by
  have hreference : ReferenceAt [' '] target [] :=
    { gap_ne := List.cons_ne_nil _ _
      gap_isGap := by simp [isGap]
      target_ne := htarget_ne
      target_inTarget := htarget
      after_stops := by simp }
  obtain ⟨others, htag⟩ : ∃ others, includeTag = '!' :: others := ⟨_, rfl⟩
  have htext : '!' :: (others ++ ' ' :: target) = includeTag ++ [' '] ++ target ++ [] := by
    rw [htag, List.append_nil, List.append_assoc]
    rfl
  have hstep : step width (.fresh 0) '!' (others ++ ' ' :: target) =
      .take [.reference [' '] target] (Stance.fresh 0).behind [] :=
    (Advance.reference rfl htext hreference).step_eq
  rw [walk_entryLine width hkey, htag, List.cons_append, walk_take hstep]
  rfl

/-! ## Behind a block scalar -/

variable {header line : List Char} {body : List (List Char)}

/-- The header of a block scalar is copied, and so are the lines that belong to it. -/
theorem copies_block
    (hheader : (Text.splitEnding header).1 = headerLine indent count key style indicators)
    (hkey : IsKey key) (hstyle : style = '|' ∨ style = '>')
    (hindicators : isBlockHeader indicators = true)
    (hbody : ∀ inner ∈ body, inBlock indent (Text.splitEnding inner).1 = true) :
    Copies .start (header :: body) { carry := .block indent, depth := 0 } := by
  have hopen : scanLine .start (Text.splitEnding header).1 =
      Scan.copyRest (Text.splitEnding header).1 { carry := .block indent, depth := 0 } := by
    rw [hheader]
    exact scanLine_headerLine hkey hstyle hindicators
  exact .cons hopen (.of_forall fun inner hinner => scanLine_inBlock (hbody inner hinner))

/-- An entry below a block scalar counts as a line of it if it is indented more than the
line of the header. -/
theorem inBlock_entryLine {value : List Char} (hname : IsKey name)
    (hline : (Text.splitEnding line).1 = entryLine entry name value) :
    inBlock indent (Text.splitEnding line).1 = decide (indent < entry) := by
  have hblank : Text.isBlankText (Text.splitEnding line).1 = false := by
    rw [hline, entryLine, Text.isBlankText, List.all_eq_false]
    exact ⟨':', by simp, by decide⟩
  rw [inBlock, hblank, hline, leadingSpaces_entryLine hname, Bool.false_or]

/-- What becomes of a line with a key and a reference that is scanned as such behind lines
that are copied. -/
theorem shown_reference {state : State} {lines : List (List Char)}
    (hcut : Text.IsCut (lines ++ [line])) (hcopies : Copies .start lines state)
    (hscan : scanLine state (Text.splitEnding line).1 =
      { pieces := (List.replicate entry ' ' ++ (name ++ [':', ' '])).map .copied ++
          [.reference [' '] target]
        after := .start }) :
    (∀ properties, shownText properties (textOf (lines ++ [line])) =
      textOf (lines ++ [entryLine entry name (singleQuoted (includeMark ++ target)) ++
        (Text.splitEnding line).2])) ∧
    includesOf (textOf (lines ++ [line])) =
      [{ target := String.ofList target, line := lines.length + 1,
         column := entry + name.length + 3 }] := by
  -- only the last line differs: it is copied up to the reference
  have hlines : scanLines .start (lines ++ [line]) = lines.map .ofLine ++
      [{ pieces := (List.replicate entry ' ' ++ (name ++ [':', ' '])).map .copied ++
          [.reference [' '] target]
         ending := (Text.splitEnding line).2 }] := by
    rw [scanLines_append, hcopies.scanLines_eq, hcopies.stateBehind_eq, scanLines_cons, hscan]
    rfl
  constructor
  · intro properties
    have hshown : shownFor properties (.reference [' '] target) =
        singleQuoted (includeMark ++ target) := by cases properties <;> rfl
    refine String.toList_injective ?_
    rw [shownText_textOf properties hcut, hlines, List.map_append, map_shownWith_ofLine,
      List.map_singleton, ScannedLine.shownWith, List.flatMap_append, flatMap_shownFor_copied,
      List.flatMap_singleton, hshown, textOf, String.toList_ofList, entryLine]
    simp
  · have hcolumn : 1 + (entry + (name.length + 2)) = entry + name.length + 3 := by omega
    have hnumber : 1 + lines.length = lines.length + 1 := Nat.add_comm _ _
    rw [includesOf, scan_textOf hcut, hlines, includesOfLines_append, includesOfLines_ofLine,
      List.nil_append, includesOfLines, includesOfLine_copied, List.length_map]
    simp [includesOfLines, includesOfLine, hcolumn, hnumber]

/-- A line with a key and a reference below a block scalar.  It is scanned as one if it is
indented at most as much as the line of the header; else it counts as a line of the block
scalar, is copied and has no reference.  The dashes in front of the key of the block scalar
do not matter for this. -/
theorem reference_behind_block (hcut : Text.IsCut (header :: body ++ [line]))
    (hheader : (Text.splitEnding header).1 = headerLine indent count key style indicators)
    (hkey : IsKey key) (hstyle : style = '|' ∨ style = '>')
    (hindicators : isBlockHeader indicators = true)
    (hbody : ∀ inner ∈ body, inBlock indent (Text.splitEnding inner).1 = true)
    (hline : (Text.splitEnding line).1 = entryLine entry name (includeTag ++ ' ' :: target))
    (hname : IsKey name) (htarget_ne : target ≠ [])
    (htarget : ∀ char ∈ target, inTarget char = true) :
    (entry ≤ indent →
      (∀ properties, shownText properties (textOf (header :: body ++ [line])) =
        textOf (header :: body ++
          [entryLine entry name (singleQuoted (includeMark ++ target)) ++
            (Text.splitEnding line).2])) ∧
      includesOf (textOf (header :: body ++ [line])) =
        [{ target := String.ofList target, line := body.length + 2,
           column := entry + name.length + 3 }]) ∧
    (indent < entry →
      (∀ properties, shownText properties (textOf (header :: body ++ [line])) =
        textOf (header :: body ++ [line])) ∧
      includesOf (textOf (header :: body ++ [line])) = []) := by
  have hblock := copies_block hheader hkey hstyle hindicators hbody
  have hinside : inBlock indent (Text.splitEnding line).1 = decide (indent < entry) :=
    inBlock_entryLine hname hline
  constructor
  · -- at most as indented as the header: the line is scanned
    intro hle
    refine shown_reference hcut hblock ?_
    rw [decide_eq_false (Nat.not_lt.mpr hle)] at hinside
    rw [scanLine_behindBlock hinside, hline, walk_referenceLine _ hname htarget_ne htarget]
  · -- further indented: it counts as a line of the block
    intro hlt
    rw [decide_eq_true hlt] at hinside
    exact unchanged_of_copies hcut
      (hblock.append (.of_forall (List.forall_mem_singleton.mpr (scanLine_inBlock hinside))))

/-- A reference below a block scalar is found at the indentation of the header's line, and
lost behind the dash of an item. -/
theorem references_below_blocks :
    positionsText "a: |\n  b\nc: !include d\n" = "a: |\n  b\nc: '!include d'\n" ∧
      includesOf "a: |\n  b\nc: !include d\n" = [{ target := "d", line := 3, column := 4 }] ∧
      positionsText "- a: |\n    b\n  c: !include d\n" = "- a: |\n    b\n  c: !include d\n" ∧
      includesOf "- a: |\n    b\n  c: !include d\n" = [] := by
  have hfirst : IsKey ['a'] := .plain (.of_letter rfl _)
  have hsecond : IsKey ['c'] := .plain (.of_letter rfl _)
  have htarget : ∀ char ∈ ['d'], inTarget char = true := List.forall_mem_singleton.mpr rfl
  have hheader : (Text.splitEnding "a: |\n".toList).1 = headerLine 0 0 ['a'] '|' [] := by decide
  have hline : (Text.splitEnding "c: !include d\n".toList).1 =
      entryLine 0 ['c'] (includeTag ++ ' ' :: ['d']) := by decide
  have hbody : ∀ inner ∈ ["  b\n".toList], inBlock 0 (Text.splitEnding inner).1 = true := by
    decide
  have hentry := (reference_behind_block (by decide) hheader hfirst (.inl rfl) (by decide) hbody
    hline hsecond (by decide) htarget).1 (by decide)
  have hdashed : (Text.splitEnding "- a: |\n".toList).1 = headerLine 0 1 ['a'] '|' [] := by decide
  have hbelow : (Text.splitEnding "  c: !include d\n".toList).1 =
      entryLine 2 ['c'] (includeTag ++ ' ' :: ['d']) := by decide
  have hdeeper : ∀ inner ∈ ["    b\n".toList], inBlock 0 (Text.splitEnding inner).1 = true := by
    decide
  have hitem := (reference_behind_block (by decide) hdashed hfirst (.inl rfl) (by decide) hdeeper
    hbelow hsecond (by decide) htarget).2 (by decide)
  exact ⟨hentry.1 true, hentry.2, hitem.1 true, hitem.2⟩

/-- An item of a sequence with a block scalar and a reference is read as a mapping with two
entries, the second of which has the tag `!include`.  The scan finds no reference in it. -/
theorem reference_lost_in_item :
    (Yaml.read "- a: |\n    b\n  c: !include d.raml\n").toOption.any
        (·.same (.sequence [.mapping [(.string "a", .string "b\n"),
          (.string "c", .tagged "!include" (.string "d.raml"))]])) = true ∧
      includesOf "- a: |\n    b\n  c: !include d.raml\n" = [] ∧
      valuesText "- a: |\n    b\n  c: !include d.raml\n" =
        "- a: |\n    b\n  c: !include d.raml\n" ∧
      positionsText "- a: |\n    b\n  c: !include d.raml\n" =
        "- a: |\n    b\n  c: !include d.raml\n" := by
  refine ⟨?_, ?_, ?_, ?_⟩ <;> decide +kernel

end RamlCheck.Include
