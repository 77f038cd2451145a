import RamlCheck.Proofs.Include.Copied
import RamlCheck.Proofs.Document.Loading

/-!
# Documents without references

The text that a document is read from for its values holds no references any more: scalars
in quotes stand in their place.  It can be entered just as the document itself can, and then
has the same header, the same value and the same outline (`Document.load_valuesText`).  So
nothing that looks at a value or an outline alone can tell a reference from a scalar in quotes
that spells it out.

## Strategy

The text is its own text for values, and reads like the document for positions
(`Include.scan_valuesText`).  What is left is its header: the first line starts with a `#`, so
all of it is copied.
-/

namespace RamlCheck

namespace Text

theorem exists_cutLines_cons {char : Char} (hfeed : char ≠ '\n') (rest : List Char) :
    ∃ line lines, cutLines (char :: rest) = (char :: line) :: lines := by
  rw [cutLines, if_neg hfeed]
  cases cutLines rest with
  | nil => exact ⟨_, _, rfl⟩
  | cons line lines => exact ⟨_, _, rfl⟩

/-- The first line of a text is that of the line which is cut off first. -/
theorem firstLine_of_cutLines {chars line : List Char} {lines : List (List Char)}
    (hlines : cutLines chars = line :: lines) : firstLine chars = firstLine line := by
  induction chars generalizing line lines with
  | nil => simp at hlines
  | cons char rest ih =>
      rw [cutLines] at hlines
      split at hlines
      · next hfeed =>
        obtain ⟨rfl, -⟩ := List.cons.inj hlines
        simp [firstLine, hfeed]
      · cases hrest : cutLines rest with
        | nil =>
            rw [hrest] at hlines
            obtain ⟨rfl, -⟩ := List.cons.inj hlines
            -- nothing is left behind the character, so it is the whole line
            have hnil := flatten_cutLines rest
            rw [hrest] at hnil
            rw [← hnil, List.flatten_nil]
        | cons first others =>
            rw [hrest] at hlines
            obtain ⟨rfl, -⟩ := List.cons.inj hlines
            simp only [firstLine, List.takeWhile_cons] at ih ⊢
            rw [ih hrest]

end Text

namespace Include

/-- A line that starts with a `#` is copied. -/
theorem scanLine_of_comment (line : List Char) :
    scanLine .start (Text.splitEnding ('#' :: line)).1 =
      Scan.copyRest (Text.splitEnding ('#' :: line)).1 .start := by
  obtain ⟨hline, -, -⟩ := Text.splitEnding_spec ('#' :: line)
  cases hcontent : (Text.splitEnding ('#' :: line)).1 with
  | nil => rfl
  | cons char content =>
      rw [hcontent, List.cons_append] at hline
      obtain ⟨rfl, -⟩ := List.cons.inj hline
      rfl

/-- A text that starts with a `#` keeps its first line. -/
theorem firstLine_valuesText {text : String} {rest : List Char}
    (htext : text.toList = '#' :: rest) :
    Text.firstLine (valuesText text).toList = Text.firstLine text.toList := by
  obtain ⟨line, lines, hlines⟩ := Text.exists_cutLines_cons (by decide : '#' ≠ '\n') rest
  rw [← htext] at hlines
  have hcopies : Copies .start ['#' :: line] .start :=
    .cons (scanLine_of_comment line) (.nil .start)
  have hshown : Text.cutLines (valuesText text).toList = ('#' :: line) ::
      (scanLines .start lines).map (·.shownWith Piece.forValues) := by
    rw [valuesText, cutLines_render showing_forValues, scan, hlines, ← List.singleton_append,
      scanLines_append, hcopies.scanLines_eq, hcopies.stateBehind_eq, List.map_append]
    exact congrArg (· ++ _) (map_shownWith_ofLine false ['#' :: line])
  rw [Text.firstLine_of_cutLines hshown, Text.firstLine_of_cutLines hlines]

end Include

/-- A line with a header starts with a `#`. -/
theorem Header.exists_of_parse? {line : List Char} {header : Header}
    (hparse : parse? line = some header) : ∃ rest, line = '#' :: rest := by
  obtain ⟨_, hstart, -⟩ := Option.bind_eq_some_iff.mp hparse
  have htake : (Text.trimEnd line).take 6 = "#%RAML".toList := by
    rw [dropStart?] at hstart
    split at hstart
    · assumption
    · contradiction
  obtain ⟨ending, hline, -⟩ := Text.mem_takeWhile_reverse_isLineEnding line.reverse Text.isBlank
  rw [List.reverse_reverse] at hline
  have htrim : Text.trimEnd line = "#%RAML".toList ++ (Text.trimEnd line).drop 6 := by
    rw [← htake, List.take_append_drop]
  exact ⟨_, hline.trans (congrArg (· ++ ending) htrim)⟩

/-- A text whose first line has a header starts with a `#`. -/
theorem Header.toList_of_parse? {text : String} {header : Header}
    (hparse : parse? (Text.firstLine text.toList) = some header) :
    ∃ rest, text.toList = '#' :: rest := by
  obtain ⟨line, hline⟩ := exists_of_parse? hparse
  refine ⟨line ++ text.toList.dropWhile (· ≠ '\n'), ?_⟩
  rw [← List.cons_append, ← hline, Text.firstLine, List.takeWhile_append_dropWhile]

namespace Document

theorem headerOf_eq_ok_iff {content : String} {header : Header} :
    headerOf content = .ok header ↔ Text.isBlankText content.toList = false ∧
      Header.parse? (Text.firstLine content.toList) = some header := by
  rw [headerOf]
  cases Text.isBlankText content.toList with
  | true => simp
  | false => cases Header.parse? (Text.firstLine content.toList) <;> simp

/-- The header of a document stays in its text for values, and no mark of a byte order comes
to stand in front of it. -/
theorem headerOf_valuesText {content : String} {header : Header}
    (hheader : headerOf content = .ok header) :
    headerOf (Include.valuesText content) = .ok header ∧
      withoutByteOrderMark (Include.valuesText content) = Include.valuesText content := by
  obtain ⟨-, hparse⟩ := headerOf_eq_ok_iff.mp hheader
  obtain ⟨rest, hrest⟩ := Header.toList_of_parse? hparse
  rw [← Include.firstLine_valuesText hrest] at hparse
  obtain ⟨others, hothers⟩ := Header.toList_of_parse? hparse
  constructor
  · refine headerOf_eq_ok_iff.mpr ⟨?_, hparse⟩
    rw [hothers, Text.isBlankText, List.all_cons]
    rfl
  · rw [withoutByteOrderMark, hothers]
    rfl

open Include in
/-- Both readers read the text for values as they read the text that it was made from. -/
theorem readers_valuesText (content : String) :
    valueOf (valuesText content) = valueOf content ∧ rootOf (valuesText content) = rootOf content ∧
      includesOf (valuesText content) = [] := by
  have hvalues : valuesText (valuesText content) = valuesText content := by
    rw [valuesText, scan_valuesText, render_settled flatMap_forValues_settled, ← valuesText]
  have hpositions : positionsText (valuesText content) = positionsText content := by
    rw [positionsText, scan_valuesText, render_settled flatMap_forPositions_settled,
      ← positionsText]
  refine ⟨?_, ?_, ?_⟩
  · unfold valueOf
    rw [hvalues]
  · unfold rootOf
    rw [hpositions]
  · rw [includesOf, scan_valuesText, includesOfLines_settled]

/-- If a document can be entered, then so can the text that it is read from for its values.
This has the same value and the same outline, and no references. -/
theorem load_valuesText {name directory content : String} {document : Document}
    (hload : load name directory content = .ok document) :
    load name directory (Include.valuesText (withoutByteOrderMark content)) =
      .ok { document with includes := [] } := by
  rcases load_cases name directory content with ⟨_, hother, -⟩ |
      ⟨header, value, root, hother, hheader, hvalue, hroot⟩
  · exact absurd (hload.symm.trans hother) (by simp)
  · obtain rfl := Except.ok.inj (hload.symm.trans hother)
    obtain ⟨hheader, hmark⟩ := headerOf_valuesText hheader
    obtain ⟨hvalues, hpositions, hincludes⟩ := readers_valuesText (withoutByteOrderMark content)
    simp only [load, hmark, hheader, hvalues, hvalue, hpositions, hroot, hincludes]
    rfl

end Document

end RamlCheck
