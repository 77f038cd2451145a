import RamlCheck.Proofs.Include.Advance
import RamlCheck.Proofs.Text.Lines

/-!
# What the pieces of a line look like

An anchor, an alias or a tag is an indicator and a word, and a reference has a gap
and a target of the right characters.  `Piece.WellFormed` says so; each step of a
walk takes only such pieces, hence so do a line and a text.

What is shown for a piece then is never empty and breaks no line (`Showing`), so
the lines of a rewritten text are the rewritten lines (`cutLines_render`).

A piece never goes beyond the end of its line, and neither does the target of a reference
(`feed_not_mem_target`).
-/

namespace RamlCheck.Include

/-- An indicator and the characters of a word behind it. -/
def IsProperty (indicator : Char) (text : List Char) : Prop :=
  ∃ name, text = indicator :: name ∧ ∀ char ∈ name, inWord char = true

/-- Whether a piece has the form that the walk gives it. -/
def Piece.WellFormed : Piece → Prop
  | .copied _ => True
  | .reference gap target =>
      gap ≠ [] ∧ (∀ char ∈ gap, isGap char = true) ∧ target ≠ [] ∧
        ∀ char ∈ target, inTarget char = true
  | .anchor text => IsProperty '&' text
  | .aliased text => IsProperty '*' text
  | .tag text => IsProperty '!' text

theorem isProperty_takeWhile (indicator : Char) (rest : List Char) :
    IsProperty indicator (indicator :: rest.takeWhile inWord) :=
  ⟨_, rfl, fun char hchar => List.all_eq_true.mp List.all_takeWhile char hchar⟩

theorem wellFormed_copied {chars : List Char} {piece : Piece}
    (hpiece : piece ∈ chars.map Piece.copied) : piece.WellFormed := by
  obtain ⟨char, -, rfl⟩ := List.mem_map.mp hpiece
  trivial

theorem wellFormed_copied_singleton {char : Char} {piece : Piece}
    (hpiece : piece ∈ [Piece.copied char]) : piece.WellFormed := by
  rw [List.mem_singleton.mp hpiece]
  trivial

/-! ## A step, a walk, a line -/

theorem Advance.wellFormed {indent : Nat} {stance next : Stance} {char : Char}
    {rest after : List Char} {pieces : List Piece}
    (hstep : Advance indent stance char rest (.take pieces next after)) {piece : Piece}
    (hpiece : piece ∈ pieces) : piece.WellFormed := by
  cases hstep with
  | gap => exact wellFormed_copied_singleton hpiece
  | quoted => exact wellFormed_copied hpiece
  | dash => exact wellFormed_copied_singleton hpiece
  | bracket => exact wellFormed_copied_singleton hpiece
  | anchor => rw [List.mem_singleton.mp hpiece]; exact isProperty_takeWhile '&' rest
  | aliased => rw [List.mem_singleton.mp hpiece]; exact isProperty_takeWhile '*' rest
  | reference _ _ hreference =>
      rw [List.mem_singleton.mp hpiece]
      exact ⟨hreference.gap_ne, hreference.gap_isGap, hreference.target_ne,
        hreference.target_inTarget⟩
  | tag => rw [List.mem_singleton.mp hpiece]; exact isProperty_takeWhile '!' rest
  | plain => exact wellFormed_copied_singleton hpiece

theorem wellFormed_scanBody {indent fuel : Nat} {stance : Stance} {chars : List Char}
    {piece : Piece} (hpiece : piece ∈ (scanBody indent fuel stance chars).pieces) :
    piece.WellFormed := by
  induction fuel generalizing stance chars with
  | zero => exact wellFormed_copied hpiece
  | succ fuel ih =>
      cases chars with
      | nil => simp [scanBody, Scan.copyRest] at hpiece
      | cons char rest =>
          have hadvance := advance_step indent stance char rest
          rw [scanBody] at hpiece
          split at hpiece
          · exact wellFormed_copied hpiece
          · next hstep =>
            rw [hstep] at hadvance
            rcases List.mem_append.mp hpiece with hpiece | hpiece
            · exact hadvance.wellFormed hpiece
            · exact ih hpiece

theorem wellFormed_scanLine {state : State} {line : List Char} {piece : Piece}
    (hpiece : piece ∈ (scanLine state line).pieces) : piece.WellFormed := by
  simp only [scanLine] at hpiece
  split at hpiece
  · exact wellFormed_scanBody hpiece
  · split at hpiece
    · exact wellFormed_copied hpiece
    · exact wellFormed_scanBody hpiece
  · split at hpiece
    · exact wellFormed_copied hpiece
    · rcases List.mem_append.mp hpiece with hpiece | hpiece
      · exact wellFormed_copied hpiece
      · exact wellFormed_scanBody hpiece

/-! ## Lines of a text -/

theorem scanLines_cons (state : State) (line : List Char) (rest : List (List Char)) :
    scanLines state (line :: rest) =
      { pieces := (scanLine state (Text.splitEnding line).1).pieces
        ending := (Text.splitEnding line).2 } ::
      scanLines (scanLine state (Text.splitEnding line).1).after rest := rfl

theorem wellFormed_scanLines {state : State} {lines : List (List Char)} {line : ScannedLine}
    (hline : line ∈ scanLines state lines) {piece : Piece} (hpiece : piece ∈ line.pieces) :
    piece.WellFormed := by
  induction lines generalizing state with
  | nil => simp [scanLines] at hline
  | cons first rest ih =>
      rw [scanLines_cons] at hline
      rcases List.mem_cons.mp hline with rfl | hline
      · exact wellFormed_scanLine hpiece
      · exact ih hline

/-- Each line of a text is what its pieces were read from, with its ending. -/
theorem forall₂_scanLines (state : State) (lines : List (List Char)) :
    List.Forall₂ (fun line (scanned : ScannedLine) =>
      sourceOf scanned.pieces = (Text.splitEnding line).1 ∧
        scanned.ending = (Text.splitEnding line).2) lines (scanLines state lines) := by
  induction lines generalizing state with
  | nil => exact .nil
  | cons line rest ih =>
      rw [scanLines_cons]
      exact .cons ⟨sourceOf_scanLine .., rfl⟩ (ih _)

/-! ## What is shown for a piece -/

/-- A way to show pieces that leaves none empty and brings in only blanks and
quotes. -/
structure Showing (shown : Piece → List Char) : Prop where
  ne_nil : ∀ {piece : Piece}, piece.WellFormed → shown piece ≠ []
  mem : ∀ {piece : Piece} {char : Char}, char ∈ shown piece →
    char ∈ piece.source ∨ char = ' ' ∨ char = '\''
  last : ∀ {piece : Piece} {char : Char}, char ∈ (shown piece).getLast? →
    char ∈ piece.source.getLast? ∨ char = ' ' ∨ char = '\''

theorem mem_singleQuoted {text : List Char} {char : Char} (hchar : char ∈ singleQuoted text) :
    char ∈ text ∨ char = '\'' := by
  simp only [singleQuoted, List.mem_append, List.mem_singleton, List.mem_flatMap] at hchar
  rcases hchar with (rfl | ⟨inner, hinner, hmem⟩) | rfl
  · exact .inr rfl
  · split at hmem
    · exact .inr (by simpa using hmem)
    · rw [List.mem_singleton.mp hmem]
      exact .inl hinner
  · exact .inr rfl

theorem getLast?_singleQuoted (text : List Char) : (singleQuoted text).getLast? = some '\'' := by
  rw [singleQuoted, List.getLast?_append_of_ne_nil _ (by simp)]
  rfl

theorem singleQuoted_ne_nil (text : List Char) : singleQuoted text ≠ [] := by
  simp [singleQuoted]

theorem mem_includeMark {char : Char} (hchar : char ∈ includeMark) :
    char ∈ includeTag ∨ char = ' ' := by
  have hall : (includeMark.all fun char => includeTag.contains char || char = ' ') = true := by
    decide
  simpa using List.all_eq_true.mp hall char hchar

theorem mem_source_of_mem_quotedReference {gap target : List Char} {char : Char}
    (hchar : char ∈ singleQuoted (includeMark ++ target)) :
    char ∈ (Piece.reference gap target).source ∨ char = ' ' ∨ char = '\'' := by
  rcases mem_singleQuoted hchar with hchar | hchar
  · rcases List.mem_append.mp hchar with hchar | hchar
    · rcases mem_includeMark hchar with hchar | hchar
      · exact .inl (by simp [Piece.source, hchar])
      · exact .inr (.inl hchar)
    · exact .inl (by simp [Piece.source, hchar])
  · exact .inr (.inr hchar)

theorem Piece.WellFormed.source_ne_nil {piece : Piece} (hpiece : piece.WellFormed) :
    piece.source ≠ [] := by
  cases piece with
  | copied char => simp [Piece.source]
  | reference gap target =>
      intro hnil
      exact hpiece.2.2.1 (List.append_eq_nil_iff.mp hnil).2
  | anchor text => obtain ⟨name, rfl, -⟩ := hpiece; simp [Piece.source]
  | aliased text => obtain ⟨name, rfl, -⟩ := hpiece; simp [Piece.source]
  | tag text => obtain ⟨name, rfl, -⟩ := hpiece; simp [Piece.source]

theorem showing_forValues : Showing Piece.forValues where
  ne_nil {piece} hpiece := by
    cases piece with
    | reference gap target => exact singleQuoted_ne_nil _
    | _ => exact hpiece.source_ne_nil
  mem {piece char} hchar := by
    cases piece with
    | reference gap target => exact mem_source_of_mem_quotedReference hchar
    | _ => exact .inl hchar
  last {piece char} hchar := by
    cases piece with
    | reference gap target =>
        rw [Piece.forValues, getLast?_singleQuoted] at hchar
        exact .inr (.inr (by simpa using hchar.symm))
    | _ => exact .inl hchar

theorem showing_forPositions : Showing Piece.forPositions where
  ne_nil {piece} hpiece := by
    cases piece with
    | copied char => simp [Piece.forPositions]
    | reference gap target => exact singleQuoted_ne_nil _
    | aliased text => exact singleQuoted_ne_nil _
    | anchor text => obtain ⟨name, rfl, -⟩ := hpiece; simp [Piece.forPositions]
    | tag text => obtain ⟨name, rfl, -⟩ := hpiece; simp [Piece.forPositions]
  mem {piece char} hchar := by
    cases piece with
    | copied other => exact .inl hchar
    | reference gap target => exact mem_source_of_mem_quotedReference hchar
    | aliased text => exact (mem_singleQuoted hchar).imp id .inr
    | anchor text => exact .inr (.inl (List.eq_of_mem_replicate hchar))
    | tag text => exact .inr (.inl (List.eq_of_mem_replicate hchar))
  last {piece char} hchar := by
    cases piece with
    | copied other => exact .inl hchar
    | reference gap target =>
        rw [Piece.forPositions, getLast?_singleQuoted] at hchar
        exact .inr (.inr (by simpa using hchar.symm))
    | aliased text =>
        rw [Piece.forPositions, getLast?_singleQuoted] at hchar
        exact .inr (.inr (by simpa using hchar.symm))
    | anchor text => exact .inr (.inl (List.eq_of_mem_replicate (List.mem_of_mem_getLast? hchar)))
    | tag text => exact .inr (.inl (List.eq_of_mem_replicate (List.mem_of_mem_getLast? hchar)))

/-! ## Rewritten lines -/

/-- A line with its ending, each piece shown some way. -/
def ScannedLine.shownWith (shown : Piece → List Char) (line : ScannedLine) : List Char :=
  line.pieces.flatMap shown ++ line.ending

theorem toList_render (shown : Piece → List Char) (lines : List ScannedLine) :
    (render shown lines).toList = (lines.map (·.shownWith shown)).flatten := by
  rw [render, String.toList_ofList, List.flatMap]
  rfl

variable {shown : Piece → List Char}

theorem Showing.flatMap_ne_nil (hshown : Showing shown) {pieces : List Piece}
    (hpieces : ∀ piece ∈ pieces, piece.WellFormed) (hsource : sourceOf pieces ≠ []) :
    pieces.flatMap shown ≠ [] := by
  cases pieces with
  | nil => exact absurd rfl hsource
  | cons piece rest =>
      intro hnil
      rw [List.flatMap_cons] at hnil
      exact hshown.ne_nil (hpieces piece (by simp)) (List.append_eq_nil_iff.mp hnil).1

theorem Showing.endsContent (hshown : Showing shown) {pieces : List Piece}
    (hpieces : ∀ piece ∈ pieces, piece.WellFormed)
    (hsource : Text.EndsContent (sourceOf pieces)) :
    Text.EndsContent (pieces.flatMap shown) := by
  -- only the last piece counts: it ends as in the source, in a blank or in a quote
  rcases List.eq_nil_or_concat pieces with rfl | ⟨init, last, rfl⟩
  · exact hsource
  · rw [List.concat_eq_append] at hpieces hsource ⊢
    have hlast := hpieces last (by simp)
    intro char hchar
    rw [List.flatMap_append, List.flatMap_singleton,
      List.getLast?_append_of_ne_nil _ (hshown.ne_nil hlast)] at hchar
    rcases hshown.last hchar with hchar | rfl | rfl
    · refine hsource char ?_
      rw [sourceOf, List.flatMap_append, List.flatMap_singleton,
        List.getLast?_append_of_ne_nil _ hlast.source_ne_nil]
      exact hchar
    · decide
    · decide

theorem Showing.not_mem_feed (hshown : Showing shown) {pieces : List Piece}
    (hsource : '\n' ∉ sourceOf pieces) : '\n' ∉ pieces.flatMap shown := by
  intro hmem
  obtain ⟨piece, hpiece, hchar⟩ := List.mem_flatMap.mp hmem
  rcases hshown.mem hchar with hchar | hchar | hchar
  · exact hsource (List.mem_flatMap.mpr ⟨piece, hpiece, hchar⟩)
  · exact absurd hchar (by decide)
  · exact absurd hchar (by decide)

/-- A rewritten line keeps its ending, and its content stays in front of it. -/
theorem Showing.splitEnding_shownWith (hshown : Showing shown) {line : ScannedLine}
    {raw : List Char} (hpieces : ∀ piece ∈ line.pieces, piece.WellFormed)
    (hsource : sourceOf line.pieces = (Text.splitEnding raw).1)
    (hending : line.ending = (Text.splitEnding raw).2) :
    Text.splitEnding (line.shownWith shown) = (line.pieces.flatMap shown, line.ending) := by
  obtain ⟨-, hcontent, hchars⟩ := Text.splitEnding_spec raw
  refine Text.splitEnding_append (hshown.endsContent hpieces (hsource ▸ hcontent)) ?_
  rwa [hending]

/-- The lines of a text and their rewritten forms have the same endings. -/
theorem Showing.forall₂_sameEnding (hshown : Showing shown) (state : State)
    (lines : List (List Char)) :
    List.Forall₂ Text.SameEnding lines
      ((scanLines state lines).map (·.shownWith shown)) := by
  rw [List.forall₂_map_right_iff]
  have hforms := forall₂_scanLines state lines
  have hwell : ∀ line ∈ scanLines state lines, ∀ piece ∈ line.pieces, piece.WellFormed :=
    fun line hline piece hpiece => wellFormed_scanLines hline hpiece
  -- from here on only what lines up with the source is needed of the scan
  generalize scanLines state lines = scanned at hforms hwell
  induction hforms with
  | nil => exact .nil
  | @cons raw line lines others hline hrest ih =>
      have hsplit := hshown.splitEnding_shownWith (hwell line (by simp)) hline.1 hline.2
      refine .cons ⟨?_, fun hfeed => ?_, fun hne => ?_⟩
        (ih fun other hother => hwell other (List.mem_cons_of_mem _ hother))
      · rw [hsplit, hline.2]
      · rw [hsplit]
        exact hshown.not_mem_feed (hline.1 ▸ hfeed)
      · rw [hsplit]
        exact hshown.flatMap_ne_nil (hwell line (by simp)) (hline.1 ▸ hne)

/-- A rewritten text is cut into the rewritten lines. -/
theorem cutLines_render (hshown : Showing shown) (text : String) :
    Text.cutLines (render shown (scan text)).toList =
      (scan text).map (·.shownWith shown) := by
  rw [toList_render, Text.cutLines_flatten]
  exact (Text.isCut_cutLines text.toList).of_sameEnding (hshown.forall₂_sameEnding _ _)

/-! ## The targets of references -/

/-- A line feed stands in no piece of a text. -/
theorem feed_not_mem_pieces {text : String} {line : ScannedLine} (hline : line ∈ scan text) :
    '\n' ∉ sourceOf line.pieces := by
  have hcut := Text.isCut_cutLines text.toList
  have hforms := forall₂_scanLines .start (Text.cutLines text.toList)
  unfold scan at hline
  generalize Text.cutLines text.toList = lines at hcut hforms hline
  generalize scanLines .start lines = scanned at hforms hline
  induction hforms with
  | nil => exact absurd hline List.not_mem_nil
  | cons hfirst _ ih =>
      obtain ⟨-, hfeed, -, hrest⟩ := hcut
      rcases List.mem_cons.mp hline with rfl | hline
      · rw [hfirst.1]
        exact Text.not_mem_content_of_cut hfeed
      · exact ih hrest hline

theorem subset_of_mem_includesOfLine {line column : Nat} {pieces : List Piece}
    {reference : Include} (hreference : reference ∈ includesOfLine line column pieces) :
    reference.target.toList ⊆ sourceOf pieces := by
  induction pieces generalizing column with
  | nil => exact absurd hreference List.not_mem_nil
  | cons piece rest ih =>
      rw [sourceOf_cons]
      unfold includesOfLine at hreference
      cases piece with
      | reference gap target =>
          rcases List.mem_cons.mp hreference with rfl | hreference
          · rw [String.toList_ofList]
            exact List.subset_append_of_subset_left _ (List.subset_append_right _ _)
          · exact List.subset_append_of_subset_right _ (ih hreference)
      | _ => exact List.subset_append_of_subset_right _ (ih hreference)

theorem exists_line_of_mem_includesOfLines {line : Nat} {lines : List ScannedLine}
    {reference : Include} (hreference : reference ∈ includesOfLines line lines) :
    ∃ scanned ∈ lines, reference.target.toList ⊆ sourceOf scanned.pieces := by
  induction lines generalizing line with
  | nil => exact absurd hreference List.not_mem_nil
  | cons scanned rest ih =>
      rcases List.mem_append.mp hreference with hreference | hreference
      · exact ⟨scanned, List.mem_cons_self, subset_of_mem_includesOfLine hreference⟩
      · obtain ⟨other, hother, hsubset⟩ := ih hreference
        exact ⟨other, List.mem_cons_of_mem _ hother, hsubset⟩

/-- The target of a reference stays on the line of the reference. -/
theorem feed_not_mem_target {text : String} {reference : Include}
    (hreference : reference ∈ includesOf text) : '\n' ∉ reference.target.toList := by
  obtain ⟨line, hline, hsubset⟩ := exists_line_of_mem_includesOfLines hreference
  exact fun hmem => feed_not_mem_pieces hline (hsubset hmem)

end RamlCheck.Include
