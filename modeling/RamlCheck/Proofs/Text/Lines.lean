import Mathlib.Data.List.Forall2
import RamlCheck.Text.Basic

/-!
# Lines that are put together again

`cutLines` undoes the joining of lines, provided that a line feed stands at the end
of each line but the last and nowhere else (`IsCut`).  So a text whose lines are
rewritten one by one, each keeping its ending, is cut into the rewritten lines
again (`IsCut.of_sameEnding`).
-/

namespace RamlCheck.Text

/-- Lines as a text is cut into them: none is empty, a line feed stands only at the
end of a line, and only the last line may lack it. -/
def IsCut : List (List Char) → Prop
  | [] => True
  | line :: rest =>
      line ≠ [] ∧ '\n' ∉ line.dropLast ∧ (rest ≠ [] → line.getLast? = some '\n') ∧ IsCut rest

instance decidableIsCut : DecidablePred IsCut
  | [] => .isTrue trivial
  | line :: rest =>
      have := decidableIsCut rest
      inferInstanceAs (Decidable (line ≠ [] ∧ '\n' ∉ line.dropLast ∧
        (rest ≠ [] → line.getLast? = some '\n') ∧ IsCut rest))

theorem isCut_cutLines (chars : List Char) : IsCut (cutLines chars) := by
  induction chars with
  | nil => trivial
  | cons char rest ih =>
      simp only [cutLines]
      split
      · exact ⟨by simp, by simp, by simp, ih⟩
      · next hchar =>
        cases hlines : cutLines rest with
        | nil => exact ⟨by simp, by simp, by simp, trivial⟩
        | cons line lines =>
            rw [hlines] at ih
            obtain ⟨hne, hfeed, hlast, hrest⟩ := ih
            cases line with
            | nil => exact absurd rfl hne
            | cons first others =>
                refine ⟨by simp, ?_, ?_, hrest⟩
                · simpa [List.dropLast, Ne.symm hchar] using hfeed
                · simpa [List.getLast?_cons_cons] using hlast

/-- A line without a line feed in front of other characters is the first one cut off. -/
theorem cutLines_append_of_feed {line rest : List Char} (hne : line ≠ [])
    (hfeed : '\n' ∉ line.dropLast) (hlast : rest ≠ [] → line.getLast? = some '\n') :
    cutLines (line ++ rest) = line :: cutLines rest := by
  induction line with
  | nil => exact absurd rfl hne
  | cons char others ih =>
      cases others with
      | nil =>
          by_cases hchar : char = '\n'
          · simp [hchar]
          · cases rest with
            | nil => simp [cutLines, hchar]
            | cons next rest => simp [hchar] at hlast
      | cons second others =>
          simp only [List.dropLast_cons_cons, List.mem_cons, not_or] at hfeed
          have hrest := ih (by simp) hfeed.2 (by simpa using hlast)
          simp [cutLines, Ne.symm hfeed.1] at hrest ⊢
          simp [hrest]

theorem cutLines_flatten {lines : List (List Char)} (hcut : IsCut lines) :
    cutLines lines.flatten = lines := by
  induction lines with
  | nil => rfl
  | cons line rest ih =>
      obtain ⟨hne, hfeed, hlast, hrest⟩ := hcut
      rw [List.flatten_cons, cutLines_append_of_feed hne hfeed, ih hrest]
      intro hflat
      exact hlast fun hnil => hflat (by simp [hnil])

theorem IsCut.of_append_left {front rest : List (List Char)} (hcut : IsCut (front ++ rest)) :
    IsCut front := by
  induction front with
  | nil => trivial
  | cons line front ih =>
      obtain ⟨hne, hfeed, hlast, hrest⟩ := hcut
      exact ⟨hne, hfeed, fun hfront => hlast (List.append_ne_nil_of_left_ne_nil hfront rest),
        ih hrest⟩

theorem IsCut.of_append_right {front rest : List (List Char)} (hcut : IsCut (front ++ rest)) :
    IsCut rest := by
  induction front with
  | nil => exact hcut
  | cons line front ih => exact ih hcut.2.2.2

/-! ## Endings -/

/-- Whether a line without its ending is there: it does not end with characters that
can end a line. -/
def EndsContent (content : List Char) : Prop :=
  ∀ char ∈ content.getLast?, isLineEnding char = false

theorem trimEndWhile_append_of_stops {drops : Char → Bool} {content ending : List Char}
    (hcontent : ∀ char ∈ content.getLast?, drops char = false)
    (hending : ∀ char ∈ ending, drops char = true) :
    trimEndWhile drops (content ++ ending) = content := by
  have hreverse : ∀ reversed rest : List Char, (∀ char ∈ reversed, drops char = true) →
      (∀ char ∈ rest.head?, drops char = false) →
      (reversed ++ rest).dropWhile drops = rest := by
    intro reversed rest hreversed hrest
    induction reversed with
    | nil =>
        cases rest with
        | nil => rfl
        | cons char rest => simp [hrest char (by simp)]
    | cons char reversed ih =>
        simp [hreversed char (by simp), ih fun other hother => hreversed other (by simp [hother])]
  simp only [trimEndWhile, List.reverse_append]
  rw [hreverse _ _ (by simpa using hending) (by simpa using hcontent), List.reverse_reverse]

theorem splitEnding_append {content ending : List Char} (hcontent : EndsContent content)
    (hending : ∀ char ∈ ending, isLineEnding char = true) :
    splitEnding (content ++ ending) = (content, ending) := by
  simp only [splitEnding, trimEndWhile_append_of_stops hcontent hending, List.drop_left]

theorem mem_takeWhile_reverse_isLineEnding (reversed : List Char) (drops : Char → Bool) :
    ∃ ending, reversed.reverse = (reversed.dropWhile drops).reverse ++ ending ∧
      ∀ char ∈ ending, drops char = true := by
  refine ⟨(reversed.takeWhile drops).reverse, ?_, fun char hchar => ?_⟩
  · rw [← List.reverse_append, List.takeWhile_append_dropWhile]
  · exact List.all_eq_true.mp List.all_takeWhile char (List.mem_reverse.mp hchar)

/-- A line is what `splitEnding` parts it into. -/
theorem splitEnding_spec (line : List Char) :
    (splitEnding line).1 ++ (splitEnding line).2 = line ∧ EndsContent (splitEnding line).1 ∧
      ∀ char ∈ (splitEnding line).2, isLineEnding char = true := by
  obtain ⟨ending, hline, hending⟩ := mem_takeWhile_reverse_isLineEnding line.reverse isLineEnding
  rw [List.reverse_reverse] at hline
  have hcontent : EndsContent (line.reverse.dropWhile isLineEnding).reverse := by
    intro char hchar
    rw [List.getLast?_reverse] at hchar
    cases hrest : line.reverse.dropWhile isLineEnding with
    | nil => simp [hrest] at hchar
    | cons first others =>
        have hfirst : first = char := by simpa [hrest] using hchar
        have hhead := List.head?_dropWhile_not isLineEnding line.reverse
        rw [hrest] at hhead
        simpa [hfirst] using hhead
  have hsplit := splitEnding_append hcontent hending
  rw [← hline] at hsplit
  rw [hsplit]
  exact ⟨hline.symm, hcontent, hending⟩

/-- Two lines that differ only in front of a common ending. -/
structure SameEnding (line other : List Char) : Prop where
  ending : (splitEnding other).2 = (splitEnding line).2
  feed : '\n' ∉ (splitEnding line).1 → '\n' ∉ (splitEnding other).1
  content_ne : (splitEnding line).1 ≠ [] → (splitEnding other).1 ≠ []

theorem not_mem_content_of_cut {line : List Char} (hfeed : '\n' ∉ line.dropLast) :
    '\n' ∉ (splitEnding line).1 := by
  obtain ⟨hline, hcontent, -⟩ := splitEnding_spec line
  intro hmem
  by_cases hending : (splitEnding line).2 = []
  · rw [hending, List.append_nil] at hline
    rw [hline] at hmem hcontent
    obtain ⟨init, last, rfl⟩ := List.eq_nil_or_concat line |>.resolve_left
      (List.ne_nil_of_mem hmem)
    rw [List.concat_eq_append, List.dropLast_concat] at hfeed
    rw [List.concat_eq_append, List.mem_append, List.mem_singleton] at hmem
    rcases hmem with hmem | rfl
    · exact hfeed hmem
    · exact absurd (hcontent '\n' (by simp)) (by decide)
  · refine hfeed ?_
    rw [← hline, List.dropLast_append_of_ne_nil hending]
    exact List.mem_append_left _ hmem

/-- Lines stay lines as long as each keeps its ending. -/
theorem IsCut.of_sameEnding {lines others : List (List Char)} (hcut : IsCut lines)
    (hsame : List.Forall₂ SameEnding lines others) : IsCut others := by
  induction hsame with
  | nil => trivial
  | @cons line other lines others hline hrest ih =>
      obtain ⟨hne, hfeed, hlast, htail⟩ := hcut
      have hparts := (splitEnding_spec line).1
      have hother := (splitEnding_spec other).1
      have hclean := not_mem_content_of_cut hfeed
      refine ⟨?_, ?_, ?_, ih htail⟩
      · -- a line is empty only if the other one is
        intro hnil
        by_cases hcontent : (splitEnding line).1 = []
        · rw [hcontent, List.nil_append] at hparts
          rw [← hother, hline.ending, hparts] at hnil
          exact hne (List.append_eq_nil_iff.mp hnil).2
        · rw [← hother] at hnil
          exact hline.content_ne hcontent (List.append_eq_nil_iff.mp hnil).1
      · by_cases hending : (splitEnding line).2 = []
        · rw [← hother, hline.ending, hending, List.append_nil]
          exact fun hmem => hline.feed hclean ((List.dropLast_sublist _).subset hmem)
        · rw [← hother, hline.ending, List.dropLast_append_of_ne_nil hending]
          rw [← hparts, List.dropLast_append_of_ne_nil hending] at hfeed
          simp only [List.mem_append, not_or] at hfeed ⊢
          exact ⟨hline.feed hclean, hfeed.2⟩
      · intro hothers
        -- a line in front of others ends in a line feed
        have hlines : lines ≠ [] := by
          rintro rfl
          exact hothers (List.forall₂_nil_left_iff.mp hrest)
        have hend := hlast hlines
        rw [← hparts] at hend
        by_cases hending : (splitEnding line).2 = []
        · rw [hending, List.append_nil] at hend
          exact absurd (List.mem_of_mem_getLast? hend) hclean
        · rw [← hother, hline.ending, List.getLast?_append_of_ne_nil _ hending]
          rwa [List.getLast?_append_of_ne_nil _ hending] at hend

end RamlCheck.Text
