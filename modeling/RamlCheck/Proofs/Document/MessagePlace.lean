import RamlCheck.Document.Entry
import RamlCheck.Proofs.Outline.Wording
import RamlCheck.Proofs.Text.Numeral

/-!
# Places in front of messages

`TellsPlace` says which texts are a line, a column and a message, in the form
`line:column: message`.  A text of this form is split into just these, and any other text
counts as a whole and for the start of the document (`splitPlace_undoes_writing`).  So what is
wrong with an outline is told at the place where it showed, in its own words
(`EntryError.failure_of_outline`).

## Strategy

Where the digits in front of a text end is settled by the colon behind them, so a text is of
the form in one way at most, and the two numbers are what is left to be read.
-/

namespace RamlCheck

open Text (Writes OneLine)

variable {line column : Nat} {text digits behind message : List Char}

/-- Whether a text is a line, a column and a message on one line. -/
inductive TellsPlace (line column : Nat) (message : List Char) : List Char → Prop
  | intro {front inner : List Char} (hline : Writes line front) (hcolumn : Writes column inner)
      (hmessage : '\n' ∉ message) :
      TellsPlace line column message (front ++ ':' :: (inner ++ ':' :: ' ' :: message))

/-! ## Reading the numbers -/

/-- The digits in front of a text go as far as they can. -/
theorem splitDigits_eq_iff : splitDigits text = (digits, behind) ↔
    text = digits ++ behind ∧ (∀ digit ∈ digits, digit.isDigit = true) ∧
      ∀ char ∈ behind.head?, char.isDigit = false := by
  constructor
  · intro hsplit
    obtain ⟨rfl, rfl⟩ := Prod.mk.inj hsplit
    refine ⟨List.takeWhile_append_dropWhile.symm, fun _ => List.mem_takeWhile_imp, ?_⟩
    intro char hchar
    have hstop := List.head?_dropWhile_not Char.isDigit text
    rw [Option.mem_def.mp hchar] at hstop
    exact hstop
  · rintro ⟨rfl, hdigits, hbehind⟩
    rw [splitDigits, List.takeWhile_append_of_pos hdigits, List.dropWhile_append_of_pos hdigits]
    cases behind with
    | nil => simp
    | cons char rest =>
        have hchar : ¬char.isDigit = true := by simp [hbehind char rfl]
        rw [List.takeWhile_cons_of_neg hchar, List.dropWhile_cons_of_neg hchar, List.append_nil]

/-- A number is read if it fits. -/
theorem placeNumber?_eq_some_iff {number : Nat} (hdigits : ∀ digit ∈ digits, digit.isDigit = true) :
    placeNumber? digits = some number ↔ Writes number digits ∧ number < placeLimit := by
  simp only [placeNumber?, Text.foldl_digits, List.isEmpty_iff]
  constructor
  · intro hnumber
    split_ifs at hnumber with hempty hfits
    obtain rfl := Option.some.inj hnumber
    exact ⟨⟨hempty, hdigits, rfl⟩, hfits⟩
  · rintro ⟨⟨hnonempty, -, rfl⟩, hfits⟩
    rw [if_neg hnonempty, if_pos hfits]

theorem splitPlace?_eq_some_iff : splitPlace? text = some (line, column, message) ↔
    TellsPlace line column message text ∧ line < placeLimit ∧ column < placeLimit := by
  constructor
  · intro hsplit
    unfold splitPlace? at hsplit
    rcases hfront : splitDigits text with ⟨front, behindLine⟩
    rw [hfront] at hsplit
    simp only at hsplit
    split at hsplit
    · next behindLine =>
      rcases hinner : splitDigits behindLine with ⟨inner, behindColumn⟩
      rw [hinner] at hsplit
      simp only at hsplit
      split at hsplit
      · next rest =>
        obtain ⟨rfl, hlineChars, -⟩ := splitDigits_eq_iff.mp hfront
        obtain ⟨rfl, hcolumnChars, -⟩ := splitDigits_eq_iff.mp hinner
        split at hsplit
        · contradiction
        · next hfeed =>
          obtain ⟨first, hfirst, hsplit⟩ := Option.bind_eq_some_iff.mp hsplit
          obtain ⟨second, hsecond, hsplit⟩ := Option.bind_eq_some_iff.mp hsplit
          obtain ⟨rfl, rfl, rfl⟩ : first = line ∧ second = column ∧ rest = message := by
            simpa using hsplit
          obtain ⟨hline, hlineFits⟩ := (placeNumber?_eq_some_iff hlineChars).mp hfirst
          obtain ⟨hcolumn, hcolumnFits⟩ := (placeNumber?_eq_some_iff hcolumnChars).mp hsecond
          exact ⟨.intro hline hcolumn (by simpa using hfeed), hlineFits, hcolumnFits⟩
      · contradiction
    · contradiction
  · rintro ⟨⟨hline, hcolumn, hmessage⟩, hlineFits, hcolumnFits⟩
    -- a colon is no digit, so each number ends in front of the one behind it
    have hcolon : ∀ {rest : List Char}, ∀ char ∈ (':' :: rest).head?, char.isDigit = false := by
      rintro _ _ ⟨⟩
      rfl
    rw [splitPlace?, splitDigits_eq_iff.mpr ⟨rfl, hline.chars, hcolon⟩]
    simp only
    rw [splitDigits_eq_iff.mpr ⟨rfl, hcolumn.chars, hcolon⟩]
    simp [hmessage, (placeNumber?_eq_some_iff hline.chars).mpr ⟨hline, hlineFits⟩,
      (placeNumber?_eq_some_iff hcolumn.chars).mpr ⟨hcolumn, hcolumnFits⟩]

/-! ## Splitting -/

/-- A message on one line with a place in front of it. -/
theorem tellsPlace_of_written (line column : Nat) {message : String} (hmessage : OneLine message) :
    TellsPlace line column message.toList
      (toString line ++ ":" ++ toString column ++ ": " ++ message).toList := by
  have hwritten := TellsPlace.intro (Text.writes_toString line) (Text.writes_toString column)
    hmessage
  simpa [String.toList_append] using hwritten

theorem splitPlace_of_tellsPlace {text message : String}
    (htells : TellsPlace line column message.toList text.toList) (hline : line < placeLimit)
    (hcolumn : column < placeLimit) : splitPlace text = (line, column, message) := by
  rw [splitPlace, splitPlace?_eq_some_iff.mpr ⟨htells, hline, hcolumn⟩]
  simp only [String.ofList_toList]

theorem splitPlace_of_forall_not {text : String}
    (hnone : ¬∃ line column message, TellsPlace line column message text.toList ∧
      line < placeLimit ∧ column < placeLimit) : splitPlace text = (1, 1, text) := by
  have hsplit : splitPlace? text.toList = none := by
    rw [Option.eq_none_iff_forall_ne_some]
    rintro ⟨line, column, message⟩ hsome
    exact hnone ⟨line, column, message, splitPlace?_eq_some_iff.mp hsome⟩
  rw [splitPlace, hsplit]

/-- What is wrong with an outline is told at the place where it showed, in its own words. -/
theorem EntryError.failure_of_outline {name text : String} {fault : Outline.Fault}
    (hread : Outline.read text = .error fault) (hline : fault.mark.line + 1 < placeLimit)
    (hcolumn : fault.mark.column + 1 < placeLimit) :
    (outline fault).failure name =
      failureAt name (fault.mark.line + 1) (fault.mark.column + 1) fault.problem.message := by
  have hproblem := Outline.Problem.oneLine_message (Outline.onOneLine_of_read hread)
  have hsplit : splitPlace fault.message = _ :=
    splitPlace_of_tellsPlace (tellsPlace_of_written _ _ hproblem) hline hcolumn
  rw [failure, hsplit]

/-- Splitting undoes writing a line and a column in front of a message, whatever that says.  So
it does with any digits that write the two numbers, and a text that is nothing of the kind, or
has a number that does not fit in 64 bits, counts as a whole and for the start. -/
theorem splitPlace_undoes_writing :
    (∀ (line column : Nat) (message : String),
      line < 2 ^ 64 → column < 2 ^ 64 → '\n' ∉ message.toList →
        splitPlace (toString line ++ ":" ++ toString column ++ ": " ++ message) =
          (line, column, message)) ∧
    (∀ (line column : Nat) (message text : String),
      TellsPlace line column message.toList text.toList → line < 2 ^ 64 → column < 2 ^ 64 →
        splitPlace text = (line, column, message)) ∧
    ∀ text : String,
      (¬∃ line column message, TellsPlace line column message text.toList ∧
        line < 2 ^ 64 ∧ column < 2 ^ 64) → splitPlace text = (1, 1, text) := by
  refine ⟨fun line column message hline hcolumn hmessage => ?_, ?_, ?_⟩
  · exact splitPlace_of_tellsPlace (tellsPlace_of_written line column hmessage) hline hcolumn
  · exact fun line column message text => splitPlace_of_tellsPlace
  · exact fun text => splitPlace_of_forall_not

/-- A message with further places in it, a line with zeros in front, and a line that does not
fit. -/
theorem splitPlace_undoes_writing_of_places :
    splitPlace "2:11: found 3:4: x" = (2, 11, "found 3:4: x") ∧
      TellsPlace 7 0 "odd".toList "007:0: odd".toList ∧
      splitPlace "007:0: odd" = (7, 0, "odd") ∧
      splitPlace "18446744073709551616:1: x" = (1, 1, "18446744073709551616:1: x") := by
  obtain ⟨hwritten, htold, hother⟩ := splitPlace_undoes_writing
  have hzeros : TellsPlace 7 0 "odd".toList "007:0: odd".toList :=
    .intro ((Text.writes_toString 7).behind_zeros 2) (Text.writes_toString 0) (by decide)
  have hwide : splitPlace? "18446744073709551616:1: x".toList = none := by decide
  refine ⟨hwritten 2 11 "found 3:4: x" (by decide) (by decide) (by decide), hzeros,
    htold 7 0 "odd" "007:0: odd" hzeros (by decide) (by decide), hother _ ?_⟩
  rintro ⟨line, column, message, htells⟩
  exact Option.some_ne_none _ ((splitPlace?_eq_some_iff.mpr htells).symm.trans hwide)

end RamlCheck
