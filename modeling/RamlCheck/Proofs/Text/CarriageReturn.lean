import RamlCheck.Proofs.Text.Lines

/-!
# Line feeds with carriage returns

A text whose lines end with line feeds, and the same text with a carriage return in front of
each (`withReturns`), have the same lines but for their endings: the lines are cut at the
same places (`cutLines_withReturns`), and what stands in front of their endings is the same
(`splitEnding_withReturns`).
-/

namespace RamlCheck.Text

/-- Some characters with a carriage return in front of each line feed. -/
def withReturns (chars : List Char) : List Char :=
  chars.flatMap fun char => if char = '\n' then ['\r', '\n'] else [char]

variable {chars line : List Char}

theorem withReturns_cons (char : Char) (chars : List Char) :
    withReturns (char :: chars) =
      (if char = '\n' then ['\r', '\n'] else [char]) ++ withReturns chars :=
  rfl

theorem withReturns_append (front rest : List Char) :
    withReturns (front ++ rest) = withReturns front ++ withReturns rest :=
  List.flatMap_append

theorem withReturns_of_not_mem (hchars : '\n' ∉ chars) : withReturns chars = chars := by
  induction chars with
  | nil => rfl
  | cons char chars ih =>
      rw [List.mem_cons, not_or] at hchars
      rw [withReturns_cons, if_neg (Ne.symm hchars.1), ih hchars.2, List.singleton_append]

theorem withReturns_flatten (lines : List (List Char)) :
    withReturns lines.flatten = (lines.map withReturns).flatten := by
  induction lines with
  | nil => rfl
  | cons line lines ih =>
      rw [List.flatten_cons, withReturns_append, ih, List.map_cons, List.flatten_cons]

/-- The lines are cut at the same places. -/
theorem cutLines_withReturns (chars : List Char) :
    cutLines (withReturns chars) = (cutLines chars).map withReturns := by
  induction chars with
  | nil => rfl
  | cons char chars ih =>
      rw [withReturns_cons]
      split
      · next hfeed =>
        rw [hfeed, cutLines_newline, List.map_cons, ← ih]
        simp [cutLines]
        rfl
      · next hother =>
        rw [List.singleton_append, cutLines, cutLines, if_neg hother, if_neg hother, ih]
        cases cutLines chars with
        | nil => simp [withReturns, hother]
        | cons line lines => simp [withReturns, hother]

theorem isLineEnding_withReturns (hchars : ∀ char ∈ chars, isLineEnding char = true) :
    ∀ char ∈ withReturns chars, isLineEnding char = true := by
  intro char hchar
  obtain ⟨inner, hinner, hmem⟩ := List.mem_flatMap.mp hchar
  split at hmem
  · rcases List.mem_pair.mp hmem with rfl | rfl <;> rfl
  · rw [List.mem_singleton.mp hmem]
    exact hchars inner hinner

/-- In front of the ending of a line there is no line feed. -/
theorem feed_not_mem_content {lines : List (List Char)} (hcut : IsCut lines)
    (hline : line ∈ lines) : '\n' ∉ (splitEnding line).1 := by
  induction lines with
  | nil => exact absurd hline List.not_mem_nil
  | cons first rest ih =>
      obtain ⟨-, hfeed, -, hrest⟩ := hcut
      rcases List.mem_cons.mp hline with rfl | hline
      · exact not_mem_content_of_cut hfeed
      · exact ih hrest hline

/-- Only the ending of a line changes. -/
theorem splitEnding_withReturns (hcontent : '\n' ∉ (splitEnding line).1) :
    splitEnding (withReturns line) = ((splitEnding line).1, withReturns (splitEnding line).2) := by
  obtain ⟨hline, hends, hending⟩ := splitEnding_spec line
  have hparts : withReturns line = (splitEnding line).1 ++ withReturns (splitEnding line).2 := by
    conv_lhs => rw [← hline, withReturns_append, withReturns_of_not_mem hcontent]
  rw [hparts, splitEnding_append hends (isLineEnding_withReturns hending)]

end RamlCheck.Text
