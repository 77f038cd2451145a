import RamlCheck.Proofs.Include.Lossless
import RamlCheck.Proofs.Text.CarriageReturn
import RamlCheck.Proofs.Yaml.SingleQuoted

/-!
# What is recorded of references

The references of a text are listed in the order in which they stand, each with the place of
its tag and with its target as written (`records_exact`).  Line endings make no difference:
with a carriage return in front of each line feed a text has the same references, and the
rewritten texts differ from the ones before by these carriage returns alone.

The quoted scalar that stands for a reference is read back as the target, unless the target
holds a break of YAML 1.1.  Lines are cut at line feeds alone, so a target may well hold
another break, and a reader folds these: where a carriage return or a next line stands in a
target, another file is read than the one that is recorded (`record_misread`).

## Strategy

Where the pieces of a line hold a reference, `referenceAt_of_pieces` says what stands around
it; the list of references is made from the pieces of the lines one by one.  What is read
back from quotes is `Yaml.run_singleQuotedScalar`.
-/

namespace RamlCheck.Include

variable {text : String} {reference : Include} {lines : List ScannedLine}
  {pieces front behind : List Piece} {gap target after : List Char} {line column : Nat}

/-! ## The order of references -/

/-- Whether a reference stands in front of another one. -/
def Before (first second : Include) : Prop :=
  first.line < second.line ∨ first.line = second.line ∧ first.column < second.column

/-- A reference in a line is one of its pieces. -/
theorem exists_piece_of_mem_includesOfLine (hmem : reference ∈ includesOfLine line column pieces) :
    ∃ front gap target behind, pieces = front ++ .reference gap target :: behind ∧
      reference =
        { target := String.ofList target, line, column := column + (sourceOf front).length } := by
  induction pieces generalizing column with
  | nil => exact absurd hmem List.not_mem_nil
  | cons piece rest ih =>
      have hrest : reference ∈ includesOfLine line (column + piece.source.length) rest →
          ∃ front gap target behind, piece :: rest = front ++ .reference gap target :: behind ∧
            reference = { target := String.ofList target, line,
                          column := column + (sourceOf front).length } := by
        intro hmem
        obtain ⟨front, gap, target, behind, rfl, rfl⟩ := ih hmem
        refine ⟨piece :: front, gap, target, behind, rfl, ?_⟩
        rw [sourceOf_cons, List.length_append, Nat.add_assoc]
      cases piece with
      | reference gap target =>
          rcases List.mem_cons.mp hmem with rfl | hmem
          · exact ⟨[], gap, target, rest, rfl, rfl⟩
          · exact hrest hmem
      | _ => exact hrest hmem

/-- A reference in some lines stands in one of them. -/
theorem exists_index_of_mem_includesOfLines (hmem : reference ∈ includesOfLines line lines) :
    ∃ index scanned, lines[index]? = some scanned ∧
      reference ∈ includesOfLine (line + index) 1 scanned.pieces := by
  induction lines generalizing line with
  | nil => exact absurd hmem List.not_mem_nil
  | cons scanned rest ih =>
      rcases List.mem_append.mp hmem with hmem | hmem
      · exact ⟨0, scanned, rfl, hmem⟩
      · obtain ⟨index, other, hother, hmem⟩ := ih hmem
        refine ⟨index + 1, other, hother, ?_⟩
        rwa [Nat.add_assoc, Nat.add_comm 1] at hmem

/-- Each piece that is a reference is recorded. -/
theorem mem_includesOfLine_of_piece (line column : Nat) (front : List Piece)
    (gap target : List Char) (behind : List Piece) :
    { target := String.ofList target, line, column := column + (sourceOf front).length } ∈
      includesOfLine line column (front ++ .reference gap target :: behind) := by
  induction front generalizing column with
  | nil => exact List.mem_cons_self
  | cons piece front ih =>
      have hrest := ih (column + piece.source.length)
      rw [Nat.add_assoc, ← List.length_append, ← sourceOf_cons] at hrest
      cases piece with
      | reference => exact List.mem_cons_of_mem _ hrest
      | _ => exact hrest

theorem mem_includesOfLines_of_line {index : Nat} {scanned : ScannedLine}
    (hscanned : lines[index]? = some scanned)
    (hmem : reference ∈ includesOfLine (line + index) 1 scanned.pieces) :
    reference ∈ includesOfLines line lines := by
  induction lines generalizing line index with
  | nil => exact absurd hscanned nofun
  | cons first rest ih =>
      rw [includesOfLines, List.mem_append]
      cases index with
      | zero =>
          obtain rfl := Option.some.inj hscanned
          exact .inl hmem
      | succ index =>
          rw [← Nat.add_assoc, Nat.add_right_comm] at hmem
          exact .inr (ih hscanned hmem)

theorem pairwise_includesOfLine (line column : Nat) (pieces : List Piece) :
    (includesOfLine line column pieces).Pairwise Before := by
  induction pieces generalizing column with
  | nil => exact .nil
  | cons piece rest ih =>
      cases piece with
      | reference gap target =>
          refine List.pairwise_cons.mpr ⟨fun other hother => .inr ?_, ih _⟩
          obtain ⟨front, gap', target', behind, -, rfl⟩ := exists_piece_of_mem_includesOfLine hother
          have hsource : (Piece.reference gap target).source.length =
              8 + gap.length + target.length := by
            simp only [Piece.source, List.length_append]
            rfl
          exact ⟨rfl, by simp only [hsource]; omega⟩
      | _ => exact ih _

/-- The references of some lines stand one behind another. -/
theorem pairwise_includesOfLines (line : Nat) (lines : List ScannedLine) :
    (includesOfLines line lines).Pairwise Before := by
  induction lines generalizing line with
  | nil => exact .nil
  | cons scanned rest ih =>
      refine List.pairwise_append.mpr ⟨pairwise_includesOfLine _ _ _, ih _, ?_⟩
      intro first hfirst second hsecond
      obtain ⟨_, _, _, _, -, rfl⟩ := exists_piece_of_mem_includesOfLine hfirst
      obtain ⟨index, _, -, hsecond⟩ := exists_index_of_mem_includesOfLines hsecond
      obtain ⟨_, _, _, _, -, rfl⟩ := exists_piece_of_mem_includesOfLine hsecond
      exact .inl (by simp only; omega)

/-! ## The text around a reference -/

theorem not_mem_copied (gap target chars : List Char) :
    Piece.reference gap target ∉ chars.map Piece.copied := by
  intro hmem
  obtain ⟨char, -, heq⟩ := List.mem_map.mp hmem
  exact absurd heq nofun

theorem map_copied_ne (chars : List Char) :
    chars.map Piece.copied ≠ front ++ .reference gap target :: behind := by
  intro heq
  exact not_mem_copied gap target chars (heq ▸ List.mem_append_right _ List.mem_cons_self)

/-- A step that takes a reference takes nothing else. -/
theorem Advance.reference_of_mem {indent : Nat} {stance next : Stance} {char : Char}
    {rest : List Char} (hstep : Advance indent stance char rest (.take pieces next after))
    (hmem : .reference gap target ∈ pieces) :
    pieces = [.reference gap target] ∧ ReferenceAt gap target after := by
  cases hstep with
  | quoted => exact absurd hmem (not_mem_copied _ _ _)
  | reference _ _ hreference =>
      cases List.mem_singleton.mp hmem
      exact ⟨rfl, hreference⟩
  | _ => exact absurd (List.mem_singleton.mp hmem) nofun

/-- Where pieces are put in front of others, a reference is one of the former or of the
latter. -/
theorem referenceAt_of_prepend {pieces others : List Piece}
    (hpieces : .reference gap target ∈ pieces →
      pieces = [.reference gap target] ∧ ReferenceAt gap target (sourceOf others))
    (hothers : ∀ {front}, others = front ++ .reference gap target :: behind →
      ReferenceAt gap target (sourceOf behind))
    (happend : pieces ++ others = front ++ .reference gap target :: behind) :
    ReferenceAt gap target (sourceOf behind) := by
  rcases List.append_eq_append_iff.mp happend with ⟨middle, -, hrest⟩ | ⟨taken, htaken, hrest⟩
  · exact hothers hrest
  · cases taken with
    | nil => exact @hothers [] hrest.symm
    | cons piece taken =>
        -- the reference is all that is put in front, so the others stand behind it
        obtain ⟨rfl, hbehind⟩ := List.cons.inj hrest
        obtain ⟨hsingle, hreference⟩ := hpieces (by simp [htaken])
        have hlength := congrArg List.length (htaken.symm.trans hsingle)
        simp only [List.length_append, List.length_cons, List.length_nil] at hlength
        obtain rfl := List.eq_nil_of_length_eq_zero (by omega : taken.length = 0)
        rw [hbehind]
        exact hreference

theorem referenceAt_of_scanBody {indent fuel : Nat} {stance : Stance} {chars : List Char}
    (hpieces : (scanBody indent fuel stance chars).pieces =
      front ++ .reference gap target :: behind) : ReferenceAt gap target (sourceOf behind) := by
  induction fuel generalizing stance chars front with
  | zero => exact absurd hpieces (map_copied_ne _)
  | succ fuel ih =>
      cases chars with
      | nil => exact absurd hpieces (map_copied_ne [])
      | cons char rest =>
          have hadvance := advance_step indent stance char rest
          rw [scanBody] at hpieces
          split at hpieces
          · exact absurd hpieces (map_copied_ne _)
          next pieces next after hstep =>
          rw [hstep] at hadvance
          refine referenceAt_of_prepend (fun hmem => ?_) ih hpieces
          rw [sourceOf_scanBody]
          exact hadvance.reference_of_mem hmem

/-- Around a reference of a line stands what makes it one. -/
theorem referenceAt_of_scanLine {state : State} {chars : List Char}
    (hpieces : (scanLine state chars).pieces = front ++ .reference gap target :: behind) :
    ReferenceAt gap target (sourceOf behind) := by
  simp only [scanLine] at hpieces
  split at hpieces
  · exact referenceAt_of_scanBody hpieces
  · split at hpieces
    · exact absurd hpieces (map_copied_ne _)
    · exact referenceAt_of_scanBody hpieces
  · split at hpieces
    · exact absurd hpieces (map_copied_ne _)
    · exact referenceAt_of_prepend (fun hmem => absurd hmem (not_mem_copied _ _ _))
        referenceAt_of_scanBody hpieces

/-- Each scanned line is what some state makes of a line of the text. -/
theorem exists_state_of_getElem? {state : State} {raws : List (List Char)} {index : Nat}
    {scanned : ScannedLine} (hscanned : (scanLines state raws)[index]? = some scanned) :
    ∃ state raw, raws[index]? = some raw ∧
      scanned.pieces = (scanLine state (Text.splitEnding raw).1).pieces ∧
      scanned.ending = (Text.splitEnding raw).2 := by
  induction raws generalizing state index with
  | nil => exact absurd hscanned nofun
  | cons raw rest ih =>
      rw [scanLines_cons] at hscanned
      cases index with
      | zero =>
          obtain rfl := Option.some.inj hscanned
          exact ⟨state, raw, rfl, rfl, rfl⟩
      | succ index => exact ih hscanned

/-- What is shown for pieces starts like them, or with a quote in place of a reference. -/
theorem inTarget_of_shown_quote (hpieces : ∀ piece ∈ pieces, piece.WellFormed)
    (hquote : (pieces.flatMap Piece.forValues).head? = some '\'') :
    ∃ char ∈ (sourceOf pieces).head?, inTarget char = true := by
  cases pieces with
  | nil => exact absurd hquote nofun
  | cons piece rest =>
      have hne := (hpieces piece List.mem_cons_self).source_ne_nil
      have hhead : (sourceOf (piece :: rest)).head? = piece.source.head? := by
        rw [sourceOf_cons, List.head?_append_of_ne_nil _ hne]
      have hshown := showing_forValues.ne_nil (hpieces piece List.mem_cons_self)
      rw [List.flatMap_cons, List.head?_append_of_ne_nil _ hshown] at hquote
      rw [hhead]
      cases piece with
      | reference gap target => exact ⟨'!', rfl, by decide⟩
      | _ => exact ⟨'\'', hquote, by decide⟩

/-- What stands behind the quoted scalar of a reference does not start with another
quote. -/
theorem shown_behind_ne_quote (hpieces : ∀ piece ∈ behind, piece.WellFormed)
    (hreference : ReferenceAt gap target (sourceOf behind)) {ending : List Char}
    (hending : ∀ char ∈ ending, Text.isLineEnding char = true) :
    (behind.flatMap Piece.forValues ++ ending).head? ≠ some '\'' := by
  intro hquote
  rw [List.head?_append] at hquote
  cases hshown : (behind.flatMap Piece.forValues).head? with
  | none =>
      -- the reference is the last piece, and its line ends behind it
      rw [hshown, Option.none_or] at hquote
      exact absurd (hending _ (List.mem_of_mem_head? hquote)) (by decide)
  | some char =>
      rw [hshown, Option.some_or] at hquote
      obtain ⟨first, hfirst, hin⟩ := inTarget_of_shown_quote hpieces (hshown.trans hquote)
      exact absurd hin (by simp [hreference.after_stops first hfirst])

/-! ## Records -/

/-- What a record says of a text: on its line, at its column, stand the tag, a gap and the
target, and in the text that is read for values a quoted scalar stands in their place, on the
same line. -/
structure Recorded (text : String) (reference : Include)
    (before gap after shownBefore shownAfter : List Char) : Prop where
  line_pos : 1 ≤ reference.line
  /-- The line falls apart at the reference. -/
  source : ∃ raw, (Text.cutLines text.toList)[reference.line - 1]? = some raw ∧
    (Text.splitEnding raw).1 = before ++ includeTag ++ gap ++ reference.target.toList ++ after
  column : reference.column = before.length + 1
  /-- The gap and the target are of the right characters, and the target goes as far as it
  can. -/
  spelt : ReferenceAt gap reference.target.toList after
  /-- The rewritten line falls apart at the quoted scalar. -/
  shown : (Text.cutLines (valuesText text).toList)[reference.line - 1]? =
    some (shownBefore ++ singleQuoted (includeMark ++ reference.target.toList) ++ shownAfter)
  /-- The quote that closes the scalar is not doubled by what follows. -/
  shown_ends : shownAfter.head? ≠ some '\''

theorem recorded_of_mem_includesOf (hmem : reference ∈ includesOf text) :
    ∃ before gap after shownBefore shownAfter,
      Recorded text reference before gap after shownBefore shownAfter := by
  obtain ⟨index, scanned, hscanned, hline⟩ := exists_index_of_mem_includesOfLines hmem
  obtain ⟨front, gap, target, behind, hpieces, rfl⟩ := exists_piece_of_mem_includesOfLine hline
  obtain ⟨state, raw, hraw, hstate, hending⟩ := exists_state_of_getElem? hscanned
  have hreference := referenceAt_of_scanLine (hstate ▸ hpieces)
  have hsource := sourceOf_scanLine state (Text.splitEnding raw).1
  have hbehind : ∀ piece ∈ behind, piece.WellFormed := by
    intro piece hpiece
    refine wellFormed_scanLine (?_ : piece ∈ (scanLine state (Text.splitEnding raw).1).pieces)
    rw [← hstate, hpieces]
    exact List.mem_append_right _ (List.mem_cons_of_mem _ hpiece)
  have hindex : 1 + index - 1 = index := Nat.add_sub_cancel_left 1 index
  refine ⟨sourceOf front, gap, sourceOf behind, front.flatMap Piece.forValues,
    behind.flatMap Piece.forValues ++ scanned.ending, ?_, ⟨raw, ?_, ?_⟩, ?_, ?_, ?_, ?_⟩
  · exact Nat.le_add_right 1 index
  · rwa [hindex]
  · rw [← hsource, ← hstate, hpieces, String.toList_ofList]
    simp only [sourceOf, List.flatMap_append, List.flatMap_cons, Piece.source, List.append_assoc]
  · exact Nat.add_comm 1 _
  · rwa [String.toList_ofList]
  · have hscan : (scan text)[index]? = some scanned := hscanned
    rw [hindex, valuesText, cutLines_render showing_forValues, List.getElem?_map, hscan,
      Option.map_some, ScannedLine.shownWith, hpieces, String.toList_ofList]
    simp only [List.flatMap_append, List.flatMap_cons, Piece.forValues, List.append_assoc]
  · exact shown_behind_ne_quote hbehind hreference (hending ▸ (Text.splitEnding_spec raw).2.2)

/-! ## Reading a target back -/

/-- Whether the quoted scalar that stands for a reference is read back as its target, wherever
it stands and whatever stands behind it. -/
def ReadsBack (target : String) : Prop :=
  ∀ (mark : Yaml.Mark) (after : List Char), after.head? ≠ some '\'' →
    ∃ (scalar : List Char) (behind : Yaml.Mark),
      Yaml.singleQuotedScalar.run (Yaml.cellsFrom Char.utf8Size mark
          (singleQuoted (includeMark ++ target.toList) ++ after)) =
        .ok (scalar, Yaml.cellsFrom Char.utf8Size behind after) ∧
      target? (String.ofList scalar) = some target

theorem target?_includeMark (target : List Char) :
    target? (String.ofList (includeMark ++ target)) = some (String.ofList target) := by
  rw [target?, String.toList_ofList]
  simp only [List.take_left, List.drop_left, if_true]

theorem unbroken_of_all {chars : List Char}
    (hall : (chars.all fun char => !Yaml.isBreak11 char) = true) :
    ∀ char ∈ chars, Yaml.isBreak11 char = false :=
  fun char hchar => by simpa using List.all_eq_true.mp hall char hchar

theorem readsBack_of_unbroken {target : String}
    (htarget : ∀ char ∈ target.toList, Yaml.isBreak11 char = false) : ReadsBack target := by
  intro mark after hafter
  have htext : ∀ char ∈ includeMark ++ target.toList, Yaml.isBreak11 char = false :=
    List.forall_mem_append.mpr ⟨unbroken_of_all (by decide), htarget⟩
  refine ⟨includeMark ++ target.toList, _, Yaml.run_singleQuotedScalar htext hafter mark, ?_⟩
  rw [target?_includeMark, String.ofList_toList]

theorem eq_append_of_target? {scalar target : String} (htarget : target? scalar = some target) :
    scalar.toList = includeMark ++ target.toList := by
  simp only [target?] at htarget
  split at htarget
  · next hmark =>
    obtain rfl := Option.some.inj htarget
    have hparts := List.take_append_drop includeMark.length scalar.toList
    rw [hmark] at hparts
    rw [String.toList_ofList, hparts]
  · exact absurd htarget nofun

/-- A break that a line feed stands for is folded. -/
theorem not_readsBack_of_break {target : String}
    (hbreak : '\r' ∈ target.toList ∨ '\u0085' ∈ target.toList) : ¬ ReadsBack target := by
  intro hreads
  obtain ⟨scalar, behind, hrun, htarget⟩ := hreads .start [] nofun
  have hscalar := eq_append_of_target? htarget
  rw [String.toList_ofList] at hscalar
  obtain ⟨hreturn, hnext⟩ := Yaml.not_mem_of_run hrun
  rw [hscalar, List.mem_append, not_or] at hreturn hnext
  exact hbreak.elim hreturn.2 hnext.2

/-! ## Line endings -/

/-- A scanned line with a carriage return in front of each line feed that ends it. -/
def ScannedLine.withReturns (line : ScannedLine) : ScannedLine :=
  { line with ending := Text.withReturns line.ending }

theorem scanLines_withReturns {raws : List (List Char)}
    (hraws : ∀ raw ∈ raws, '\n' ∉ (Text.splitEnding raw).1) (state : State) :
    scanLines state (raws.map Text.withReturns) =
      (scanLines state raws).map ScannedLine.withReturns := by
  induction raws generalizing state with
  | nil => rfl
  | cons raw rest ih =>
      obtain ⟨hraw, hrest⟩ := List.forall_mem_cons.mp hraws
      rw [List.map_cons, scanLines_cons, scanLines_cons, Text.splitEnding_withReturns hraw,
        ih hrest]
      rfl

theorem includesOfLines_withReturns (line : Nat) (lines : List ScannedLine) :
    includesOfLines line (lines.map ScannedLine.withReturns) = includesOfLines line lines := by
  induction lines generalizing line with
  | nil => rfl
  | cons scanned rest ih => rw [List.map_cons, includesOfLines, includesOfLines, ih]; rfl

/-- A text with a carriage return in front of each line feed. -/
def returned (text : String) : String :=
  String.ofList (Text.withReturns text.toList)

theorem scan_returned (text : String) :
    scan (returned text) = (scan text).map ScannedLine.withReturns := by
  have hcut := Text.isCut_cutLines text.toList
  rw [scan, returned, String.toList_ofList, Text.cutLines_withReturns]
  exact scanLines_withReturns (fun raw hraw => Text.feed_not_mem_content hcut hraw) .start

theorem includesOf_returned (text : String) : includesOf (returned text) = includesOf text := by
  rw [includesOf, scan_returned, includesOfLines_withReturns, includesOf]

/-- A rewritten text differs by the same carriage returns. -/
theorem shownText_returned (properties : Bool) (text : String) :
    shownText properties (returned text) = returned (shownText properties text) := by
  have hshown := showing_shownFor properties
  have hlines : ((scan text).map ScannedLine.withReturns).map (·.shownWith (shownFor properties)) =
      ((scan text).map (·.shownWith (shownFor properties))).map Text.withReturns := by
    rw [List.map_map, List.map_map]
    refine List.map_congr_left fun line hline => ?_
    have hfeed := hshown.not_mem_feed (feed_not_mem_pieces hline)
    show line.pieces.flatMap _ ++ Text.withReturns line.ending = Text.withReturns (_ ++ line.ending)
    rw [Text.withReturns_append, Text.withReturns_of_not_mem hfeed]
  apply String.toList_injective
  calc (shownText properties (returned text)).toList
      = (((scan text).map ScannedLine.withReturns).map
          (·.shownWith (shownFor properties))).flatten := by
        rw [shownText_eq_render, scan_returned, toList_render]
    _ = Text.withReturns ((scan text).map (·.shownWith (shownFor properties))).flatten := by
        rw [hlines, Text.withReturns_flatten]
    _ = (returned (shownText properties text)).toList := by
        rw [returned, String.toList_ofList, shownText_eq_render, toList_render]

/-! ## All references of a text -/

/-- The references of a text are listed in the order in which they stand, none left out and
each as it is written.  What stands for one of them is read back as its target if that holds
no break of YAML 1.1, and it is not if that holds a carriage return or a next line.  Carriage
returns in front of line feeds change neither the references nor anything else of the
rewritten texts. -/
theorem records_exact (text : String) :
    (includesOf text).Pairwise Before ∧
    (∀ index scanned front gap target behind, (scan text)[index]? = some scanned →
      scanned.pieces = front ++ .reference gap target :: behind →
        { target := String.ofList target, line := 1 + index,
          column := 1 + (sourceOf front).length } ∈ includesOf text) ∧
    (∀ reference ∈ includesOf text,
      (∃ before gap after shownBefore shownAfter,
        Recorded text reference before gap after shownBefore shownAfter) ∧
      ((∀ char ∈ reference.target.toList, Yaml.isBreak11 char = false) →
        ReadsBack reference.target) ∧
      ('\r' ∈ reference.target.toList ∨ '\u0085' ∈ reference.target.toList →
        ¬ ReadsBack reference.target)) ∧
    includesOf (returned text) = includesOf text ∧
    ∀ properties, shownText properties (returned text) = returned (shownText properties text) := by
  refine ⟨pairwise_includesOfLines 1 (scan text), ?_, fun reference hmem => ?_,
    includesOf_returned text, fun properties => shownText_returned properties text⟩
  · intro index scanned front gap target behind hscanned hpieces
    refine mem_includesOfLines_of_line hscanned ?_
    rw [hpieces]
    exact mem_includesOfLine_of_piece (1 + index) 1 front gap target behind
  · exact ⟨recorded_of_mem_includesOf hmem, readsBack_of_unbroken, not_readsBack_of_break⟩

/-- A target with a quote in it, behind a gap of two blanks and a wide character, and in front
of a comma. -/
theorem records_exact_of_quote :
    includesOf "[ä, !include \tit's.raml, b]\r\n" =
        [{ target := "it's.raml", line := 1, column := 5 }] ∧
      (∃ before gap after shownBefore shownAfter,
        Recorded "[ä, !include \tit's.raml, b]\r\n"
          { target := "it's.raml", line := 1, column := 5 } before gap after shownBefore
          shownAfter) ∧
      ReadsBack "it's.raml" := by
  have hincludes : includesOf "[ä, !include \tit's.raml, b]\r\n" =
      [{ target := "it's.raml", line := 1, column := 5 }] := by decide +kernel
  obtain ⟨-, -, hrecords, -, -⟩ := records_exact "[ä, !include \tit's.raml, b]\r\n"
  obtain ⟨hrecorded, hreads, -⟩ := hrecords _ (hincludes ▸ List.mem_singleton_self _)
  exact ⟨hincludes, hrecorded, hreads (unbroken_of_all (by decide +kernel))⟩

/-- A next line in a target is recorded, but what is read from the rewritten text is another
target, with a space in its place. -/
theorem record_misread :
    includesOf "#%RAML 1.0\ntitle: x\ntypes: !include a\u0085b\n" =
        [{ target := "a\u0085b", line := 3, column := 8 }] ∧
      (Yaml.read (valuesText "#%RAML 1.0\ntitle: x\ntypes: !include a\u0085b\n")).toOption.any
        (·.same (.mapping [(.string "title", .string "x"),
          (.string "types", .string "!include a b")])) = true ∧
      target? "!include a b" = some "a b" := by
  refine ⟨?_, ?_, ?_⟩ <;> decide +kernel

end RamlCheck.Include
