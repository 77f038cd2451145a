import RamlCheck.Proofs.Include.Advance
import RamlCheck.Proofs.Yaml.Cells
import RamlCheck.Yaml.TokenList

/-!
# Reading scalars in single quotes

A text without a break that is put in single quotes is read back as it was
(`run_singleQuotedScalar`): two quotes inside stand for one, and blanks stay where they are.
Breaks are folded, and since what is read holds what breaks mean and not the breaks
themselves, a carriage return or a next line is never read back (`not_mem_of_run`).

## Strategy

The reader takes such a text word by word, with the blanks behind each word.
`run_quotedWord`, `run_takeSpaces` and `run_quotedText` say what one step of each loop does;
a word and the blanks behind it are inductions over their characters, the whole text is one
over its length.
-/

namespace RamlCheck.Yaml

open Include (singleQuoted isGap)

/-- A scalar in single quotes, from the quote that opens it on. -/
def singleQuotedScalar : Scan (List Char) := do
  Scan.skip 1
  quotedText true (← Scan.fuel) []

/-! ## Cells in front -/

namespace Marked

/-- A text without some cells in front. -/
def drop (count : Nat) (text : Marked) : Marked :=
  { text with cells := text.cells.drop count }

variable (text : Marked) (cell : Cell)

@[simp] theorem drop_zero : text.drop 0 = text := rfl

@[simp] theorem drop_cons (count : Nat) : (text.cons cell).drop (count + 1) = text.drop count := rfl

@[simp] theorem ahead?_cons_zero : (text.cons cell).ahead? 0 = some cell.char := rfl

@[simp] theorem ahead?_cons_succ (distance : Nat) :
    (text.cons cell).ahead? (distance + 1) = text.ahead? distance := rfl

theorem isBlankOrEndAt_cons :
    (text.cons cell).isBlankOrEndAt 0 = (isGap cell.char || cell.isBreak) := by
  simp [isBlankOrEndAt, isGapAt, isBreakOrEndAt, isBreakAt, isEndAt, ahead?, cons, isGap]

end Marked

/-! ## Places -/

/-- The place behind some text without a break. -/
def Mark.past (width : Char → Nat) (mark : Mark) (chars : List Char) : Mark :=
  chars.foldl (fun mark char => mark.next (width char)) mark

variable {width : Char → Nat} {mark : Mark} {char : Char} {chars front word gap rest : List Char}

theorem Mark.past_append (mark : Mark) (front rest : List Char) :
    mark.past width (front ++ rest) = (mark.past width front).past width rest :=
  List.foldl_append

theorem Mark.column_past (mark : Mark) (chars : List Char) :
    (mark.past width chars).column = mark.column + chars.length := by
  induction chars generalizing mark with
  | nil => rfl
  | cons char chars ih =>
      have hrest : (mark.past width (char :: chars)).column = _ := ih (mark.next (width char))
      simp only [hrest, Mark.next, List.length_cons]
      omega

/-- The cells of a text from some place on, behind a character that is no carriage
return. -/
abbrev cellsFrom (width : Char → Nat) (mark : Mark) (chars : List Char) : Marked :=
  markedFrom isBreak11 width false mark chars

theorem cellsFrom_cons (hchar : isBreak11 char = false) (mark : Mark) (rest : List Char) :
    cellsFrom width mark (char :: rest) =
      (cellsFrom width (mark.next (width char)) rest).cons { char, mark, isBreak := false } := by
  rw [cellsFrom, markedFrom_cons (by simp), cellAt, Mark.behind]
  simp [hchar]

theorem here_cellsFrom (mark : Mark) (chars : List Char) :
    (cellsFrom width mark chars).here = mark := by
  cases chars with
  | nil => rfl
  | cons char rest => rw [cellsFrom, markedFrom_cons (by simp)]; rfl

/-- Each character of a text without a break has a cell. -/
theorem length_le_cellsFrom (hfront : ∀ char ∈ front, isBreak11 char = false) (mark : Mark)
    (rest : List Char) : front.length ≤ (cellsFrom width mark (front ++ rest)).cells.length := by
  induction front generalizing mark with
  | nil => exact Nat.zero_le _
  | cons char front ih =>
      obtain ⟨hchar, hfront⟩ := List.forall_mem_cons.mp hfront
      rw [List.cons_append, cellsFrom_cons hchar]
      exact Nat.succ_le_succ (ih hfront _)

/-- The first cell holds a quote only if the text starts with one. -/
theorem ahead?_cellsFrom_ne (hrest : rest.head? ≠ some '\'') :
    (cellsFrom width mark rest).ahead? 0 ≠ some '\'' := by
  cases rest with
  | nil => exact nofun
  | cons char rest =>
      have hchar : char ≠ '\'' := by simpa using hrest
      rw [cellsFrom, markedFrom_cons (by simp), Marked.ahead?_cons_zero, cellAt]
      simp only [ne_eq, Option.some.injEq]
      split
      · rw [breakMeaning]
        split
        · exact hchar
        · decide
      · exact hchar

/-! ## One step of each loop -/

/-- A word with a character in front. -/
def inFront (char : Char) (result : (List Char × Bool) × Marked) : (List Char × Bool) × Marked :=
  ((char :: result.1.1, result.1.2), result.2)

theorem run_quotedWord (text : Marked) (remaining : Nat) :
    (quotedWord true (remaining + 1)).run text =
      match text.ahead? 0 with
      | none => .ok (([], false), text)
      | some char =>
          if text.isBlankOrEndAt 0 then .ok (([], false), text)
          else if char = '\'' ∧ text.ahead? 1 = some '\'' then
            inFront '\'' <$> (quotedWord true remaining).run (text.drop 2)
          else if char = '\'' then .ok (([], false), text)
          else inFront char <$> (quotedWord true remaining).run (text.drop 1) := by
  rw [quotedWord]
  cases hahead : text.ahead? 0 with
  | none => simp only [StateT.run_bind, StateT.run_get, pure_bind, hahead]; rfl
  | some char =>
      simp only [StateT.run_bind, StateT.run_get, pure_bind, hahead, Bool.true_and, if_true,
        Bool.and_eq_true, decide_eq_true_eq]
      split
      · rfl
      split
      · rfl
      split <;> rfl

theorem run_takeSpaces (text : Marked) (remaining : Nat) (spaces : Spaces) :
    (takeSpaces 0 (remaining + 1) spaces).run text =
      match text.cells with
      | [] => .ok (spaces, text)
      | cell :: _ =>
          if cell.isSpace then (takeSpaces 0 remaining (spaces.push cell)).run (text.drop 1)
          else .ok (spaces, text) := by
  rw [takeSpaces]
  cases hcells : text.cells with
  | nil => simp only [StateT.run_bind, StateT.run_get, pure_bind, hcells]; rfl
  | cons cell rest =>
      simp only [StateT.run_bind, StateT.run_get, pure_bind, hcells, Nat.not_lt_zero,
        decide_false, Bool.and_false]
      cases cell.isSpace <;> rfl

theorem run_takeSpaces_cons (text : Marked) (cell : Cell) (remaining : Nat) (spaces : Spaces) :
    (takeSpaces 0 (remaining + 1) spaces).run (text.cons cell) =
      if cell.isSpace then (takeSpaces 0 remaining (spaces.push cell)).run text
      else .ok (spaces, text.cons cell) := by
  rw [run_takeSpaces]
  rfl

theorem run_quotedText {text : Marked} (hindicator : text.atDocumentIndicator = false)
    (hend : text.isEndAt 0 = false) (remaining : Nat) (front : List Char) :
    (quotedText true (remaining + 1) front).run text = (do
      let ((word, broken), next) ← (quotedWord true (text.cells.length + 1)).run text
      if next.ahead? 0 = some '\'' then .ok (front ++ word, next.drop 1)
      else do
        let (spaces, after) ←
          (takeSpaces 0 (next.cells.length + 1) (.mk [] [] [] broken)).run next
        (quotedText true remaining (front ++ word ++ spaces.meaning)).run after) := by
  rw [quotedText]
  simp only [StateT.run_bind, Scan.looksAt, StateT.run_get, pure_bind, hindicator, hend,
    Scan.fuel, Bool.false_eq_true, if_false, bind_assoc]
  congr 1
  funext result
  obtain ⟨⟨word, broken⟩, next⟩ := result
  simp only [Scan.peek, StateT.run_bind, StateT.run_get, pure_bind, StateT.run_pure, if_true]
  split <;> rfl

/-- The loop goes on only inside of a document, and in front of some text. -/
theorem of_run_quotedText {text next : Marked} {remaining : Nat} {front result : List Char}
    (hrun : (quotedText true (remaining + 1) front).run text = .ok (result, next)) :
    text.atDocumentIndicator = false ∧ text.isEndAt 0 = false := by
  rw [quotedText] at hrun
  simp only [StateT.run_bind, Scan.looksAt, StateT.run_get, pure_bind, StateT.run_pure] at hrun
  cases hindicator : text.atDocumentIndicator with
  | true => rw [hindicator] at hrun; exact absurd hrun nofun
  | false =>
      simp only [hindicator, Bool.false_eq_true, if_false, StateT.run_bind, StateT.run_get,
        pure_bind, StateT.run_pure] at hrun
      cases hend : text.isEndAt 0 with
      | true => rw [hend] at hrun; exact absurd hrun nofun
      | false => exact ⟨rfl, rfl⟩

/-! ## Words and blanks -/

/-- How a character is written in single quotes. -/
def doubled (char : Char) : List Char :=
  if char = '\'' then ['\'', '\''] else [char]

theorem singleQuoted_eq (text : List Char) :
    singleQuoted text = '\'' :: (text.flatMap doubled ++ ['\'']) :=
  rfl

/-- Whether a word in single quotes ends in front of some text: at a blank, or at a quote
that no other one follows. -/
inductive EndsWord : List Char → Prop
  | gap {char : Char} {rest : List Char} (hgap : isGap char = true) : EndsWord (char :: rest)
  | quote {rest : List Char} (hrest : rest.head? ≠ some '\'') : EndsWord ('\'' :: rest)

theorem isBreak11_of_isGap (hgap : isGap char = true) : isBreak11 char = false := by
  rcases Include.isGap_iff.mp hgap with rfl | rfl <;> rfl

theorem run_quotedWord_end (hends : EndsWord rest) (mark : Mark) (remaining : Nat) :
    (quotedWord true (remaining + 1)).run (cellsFrom width mark rest) =
      .ok (([], false), cellsFrom width mark rest) := by
  cases hends with
  | gap hgap =>
      rw [cellsFrom_cons (isBreak11_of_isGap hgap), run_quotedWord, Marked.isBlankOrEndAt_cons]
      simp only [Marked.ahead?_cons_zero, hgap, Bool.true_or, if_true]
  | quote hrest =>
      have hnext : (cellsFrom width (mark.next (width '\'')) _).ahead? 0 ≠ some '\'' :=
        ahead?_cellsFrom_ne hrest
      rw [cellsFrom_cons rfl, run_quotedWord, Marked.isBlankOrEndAt_cons]
      simp only [Marked.ahead?_cons_zero, Marked.ahead?_cons_succ, hnext, and_false, if_false,
        if_true]
      rfl

/-- A word is taken up to where it ends. -/
theorem run_quotedWord_word (hgap : ∀ char ∈ word, isGap char = false)
    (hbreak : ∀ char ∈ word, isBreak11 char = false) (hends : EndsWord rest) (mark : Mark)
    {remaining : Nat} (hfuel : word.length < remaining) :
    (quotedWord true remaining).run (cellsFrom width mark (word.flatMap doubled ++ rest)) =
      .ok ((word, false), cellsFrom width (mark.past width (word.flatMap doubled)) rest) := by
  induction word generalizing mark remaining with
  | nil =>
      obtain ⟨remaining, rfl⟩ := Nat.exists_eq_succ_of_ne_zero (Nat.ne_zero_of_lt hfuel)
      exact run_quotedWord_end hends mark remaining
  | cons char word ih =>
      obtain ⟨remaining, rfl⟩ := Nat.exists_eq_succ_of_ne_zero (Nat.ne_zero_of_lt hfuel)
      obtain ⟨hchargap, hgap⟩ := List.forall_mem_cons.mp hgap
      obtain ⟨hcharbreak, hbreak⟩ := List.forall_mem_cons.mp hbreak
      have hrest := fun mark => ih hgap hbreak mark (Nat.lt_of_succ_lt_succ hfuel)
      rw [List.flatMap_cons, List.append_assoc, Mark.past_append, doubled]
      split
      · next hquote =>
        -- a quote is written twice and read once
        rw [List.cons_append, List.cons_append, List.nil_append, cellsFrom_cons rfl,
          cellsFrom_cons rfl, run_quotedWord, Marked.isBlankOrEndAt_cons]
        simp only [Marked.ahead?_cons_zero, Marked.ahead?_cons_succ, Marked.drop_cons,
          Marked.drop_zero, hrest, if_true, hquote]
        rfl
      · next hquote =>
        rw [List.cons_append, List.nil_append, cellsFrom_cons hcharbreak, run_quotedWord,
          Marked.isBlankOrEndAt_cons]
        simp only [Marked.ahead?_cons_zero, Marked.drop_cons, Marked.drop_zero, hrest, hquote,
          hchargap, false_and, if_false, Bool.false_or, Bool.false_eq_true]
        rfl

/-- What stands behind the blanks of a line: a character that is neither a blank nor a
break. -/
def StartsWord (rest : List Char) : Prop :=
  ∃ char others, rest = char :: others ∧ isGap char = false ∧ isBreak11 char = false

/-- Blanks are taken up to the next word. -/
theorem run_takeSpaces_gap (hgap : ∀ char ∈ gap, isGap char = true) (hrest : StartsWord rest)
    (mark : Mark) {spaces : Spaces} (hbroken : spaces.broken = false) {remaining : Nat}
    (hfuel : gap.length < remaining) :
    (takeSpaces 0 remaining spaces).run (cellsFrom width mark (gap ++ rest)) =
      .ok ({ spaces with gap := spaces.gap ++ gap },
        cellsFrom width (mark.past width gap) rest) := by
  induction gap generalizing mark remaining spaces with
  | nil =>
      obtain ⟨remaining, rfl⟩ := Nat.exists_eq_succ_of_ne_zero (Nat.ne_zero_of_lt hfuel)
      obtain ⟨char, others, rfl, hchargap, hcharbreak⟩ := hrest
      have hspace : Cell.isSpace { char, mark, isBreak := false } = false := by
        simpa [Cell.isSpace, isGap] using hchargap
      rw [List.nil_append, List.append_nil, Mark.past, List.foldl_nil, cellsFrom_cons hcharbreak,
        run_takeSpaces_cons, hspace, if_neg Bool.false_ne_true]
  | cons char gap ih =>
      obtain ⟨remaining, rfl⟩ := Nat.exists_eq_succ_of_ne_zero (Nat.ne_zero_of_lt hfuel)
      obtain ⟨hchar, hgap⟩ := List.forall_mem_cons.mp hgap
      have hspace : Cell.isSpace { char, mark, isBreak := false } = true := by
        simpa [Cell.isSpace, isGap] using hchar
      have hpush : spaces.push { char, mark, isBreak := false } =
          { spaces with gap := spaces.gap ++ [char] } := by
        simp only [Spaces.push, hbroken, Bool.false_eq_true, if_false]
      -- no line has ended yet, so blanks are kept
      have hopen : (Spaces.mk (spaces.gap ++ [char]) spaces.firstBreak spaces.otherBreaks
          spaces.broken).broken = false := hbroken
      rw [List.cons_append, cellsFrom_cons (isBreak11_of_isGap hchar), run_takeSpaces_cons, hspace,
        if_pos rfl, hpush, ih hgap _ hopen (Nat.lt_of_succ_lt_succ hfuel)]
      simp only [List.append_assoc, List.cons_append, List.nil_append]
      rfl

/-! ## The whole scalar -/

theorem atDocumentIndicator_of_column (hcolumn : 0 < mark.column) (chars : List Char) :
    (cellsFrom width mark chars).atDocumentIndicator = false := by
  have hne : mark.column ≠ 0 := Nat.ne_of_gt hcolumn
  simp [Marked.atDocumentIndicator, here_cellsFrom, hne]

theorem not_isEndAt_of_unbroken (hfront : ∀ char ∈ front, isBreak11 char = false)
    (hchar : isBreak11 char = false) (mark : Mark) (rest : List Char) :
    (cellsFrom width mark (front ++ char :: rest)).isEndAt 0 = false := by
  cases front with
  | nil => rw [List.nil_append, cellsFrom_cons hchar]; rfl
  | cons first front => rw [List.cons_append, cellsFrom_cons (hfront first List.mem_cons_self)]; rfl

theorem unbroken_flatMap_doubled (hchars : ∀ char ∈ chars, isBreak11 char = false) :
    ∀ char ∈ chars.flatMap doubled, isBreak11 char = false := by
  intro char hchar
  obtain ⟨inner, hinner, hmem⟩ := List.mem_flatMap.mp hchar
  rw [doubled] at hmem
  split at hmem
  · obtain rfl : char = '\'' := by simpa using hmem
    rfl
  · rw [List.mem_singleton.mp hmem]
    exact hchars inner hinner

theorem le_length_flatMap_doubled (chars : List Char) :
    chars.length ≤ (chars.flatMap doubled).length := by
  induction chars with
  | nil => exact Nat.le_refl 0
  | cons char chars ih =>
      rw [List.flatMap_cons, List.length_append, List.length_cons, doubled]
      split <;> simp only [List.length_cons, List.length_nil] <;> omega

theorem doubled_of_isGap (hgap : isGap char = true) : doubled char = [char] := by
  rcases Include.isGap_iff.mp hgap with rfl | rfl <;> rfl

theorem flatMap_doubled_gap (hgap : ∀ char ∈ gap, isGap char = true) :
    gap.flatMap doubled = gap := by
  induction gap with
  | nil => rfl
  | cons char gap ih =>
      obtain ⟨hchar, hgap⟩ := List.forall_mem_cons.mp hgap
      rw [List.flatMap_cons, ih hgap, doubled_of_isGap hchar, List.singleton_append]

/-- A text is one word, or a word, a blank, more blanks and what follows them. -/
theorem word_or_gap (text : List Char) :
    (∀ char ∈ text, isGap char = false) ∨
      ∃ word first gap others, text = word ++ (first :: gap) ++ others ∧
        (∀ char ∈ word, isGap char = false) ∧ (∀ char ∈ first :: gap, isGap char = true) ∧
        ∀ char ∈ others.head?, isGap char = false := by
  have htext := List.takeWhile_append_dropWhile (p := fun char => !isGap char) (l := text)
  have hword : ∀ char ∈ text.takeWhile (fun char => !isGap char), isGap char = false :=
    fun char hchar => by simpa using List.all_eq_true.mp List.all_takeWhile char hchar
  cases hrest : text.dropWhile (fun char => !isGap char) with
  | nil =>
      rw [hrest, List.append_nil] at htext
      exact .inl (htext ▸ hword)
  | cons first rest =>
      have hhead : first ∈ (text.dropWhile fun char => !isGap char).head? := by
        rw [hrest]
        rfl
      have hfirst : isGap first = true := by
        simpa using Include.not_of_mem_head?_dropWhile hhead
      refine .inr ⟨_, first, rest.takeWhile isGap, rest.dropWhile isGap, ?_, hword, ?_, ?_⟩
      · rw [List.append_assoc, List.cons_append, List.takeWhile_append_dropWhile, ← hrest, htext]
      · exact List.forall_mem_cons.mpr
          ⟨hfirst, fun char hchar => List.all_eq_true.mp List.all_takeWhile char hchar⟩
      · exact fun char hchar => Include.not_of_mem_head?_dropWhile hchar

/-- The last word is taken with the quote behind it. -/
theorem run_quotedText_last {after : List Char} (hgap : ∀ char ∈ word, isGap char = false)
    (hbreak : ∀ char ∈ word, isBreak11 char = false) (hafter : after.head? ≠ some '\'')
    (hcolumn : 0 < mark.column) (front : List Char) (remaining : Nat) :
    (quotedText true (remaining + 1) front).run
        (cellsFrom width mark (word.flatMap doubled ++ '\'' :: after)) =
      .ok (front ++ word,
        cellsFrom width (mark.past width (word.flatMap doubled ++ ['\''])) after) := by
  have hquoted := unbroken_flatMap_doubled hbreak
  have hfuel : word.length <
      (cellsFrom width mark (word.flatMap doubled ++ '\'' :: after)).cells.length + 1 :=
    Nat.lt_succ_of_le
      (Nat.le_trans (le_length_flatMap_doubled word) (length_le_cellsFrom hquoted _ _))
  rw [run_quotedText (atDocumentIndicator_of_column hcolumn _)
      (not_isEndAt_of_unbroken hquoted rfl _ _),
    run_quotedWord_word hgap hbreak (.quote hafter) mark hfuel, Mark.past_append,
    cellsFrom_cons rfl]
  rfl

/-- A word is taken with the blanks behind it. -/
theorem run_quotedText_gap {first : Char} (hgap : ∀ char ∈ word, isGap char = false)
    (hbreak : ∀ char ∈ word, isBreak11 char = false)
    (hblank : ∀ char ∈ first :: gap, isGap char = true) (hrest : StartsWord rest)
    (hcolumn : 0 < mark.column) (front : List Char) (remaining : Nat) :
    (quotedText true (remaining + 1) front).run
        (cellsFrom width mark (word.flatMap doubled ++ (first :: gap ++ rest))) =
      (quotedText true remaining (front ++ word ++ first :: gap)).run
        (cellsFrom width (mark.past width (word.flatMap doubled ++ first :: gap)) rest) := by
  have hquoted := unbroken_flatMap_doubled hbreak
  have hfirst := hblank first List.mem_cons_self
  have hblankBreak : ∀ char ∈ first :: gap, isBreak11 char = false :=
    fun char hchar => isBreak11_of_isGap (hblank char hchar)
  -- each round of the loop takes a character, so that the fuel is enough
  have hfuel : word.length < (cellsFrom width mark
      (word.flatMap doubled ++ (first :: gap ++ rest))).cells.length + 1 :=
    Nat.lt_succ_of_le
      (Nat.le_trans (le_length_flatMap_doubled word) (length_le_cellsFrom hquoted _ _))
  have hopen : (Spaces.mk [] [] [] false).broken = false := rfl
  have hahead : (cellsFrom width (mark.past width (word.flatMap doubled))
      (first :: gap ++ rest)).ahead? 0 ≠ some '\'' := by
    refine ahead?_cellsFrom_ne ?_
    rcases Include.isGap_iff.mp hfirst with rfl | rfl <;> simp
  have hcells : (cellsFrom width mark
      (word.flatMap doubled ++ (first :: gap ++ rest))).isEndAt 0 = false :=
    not_isEndAt_of_unbroken hquoted (isBreak11_of_isGap hfirst) mark (gap ++ rest)
  have hends : EndsWord (first :: gap ++ rest) := .gap hfirst
  rw [run_quotedText (atDocumentIndicator_of_column hcolumn _) hcells,
    run_quotedWord_word hgap hbreak hends mark hfuel]
  simp only [bind, Except.bind, if_neg hahead]
  rw [run_takeSpaces_gap hblank hrest _ hopen
    (Nat.lt_succ_of_le (length_le_cellsFrom hblankBreak _ rest)), Mark.past_append]
  rfl

theorem startsWord_quoted {text : List Char} (hgap : ∀ char ∈ text.head?, isGap char = false)
    (hbreak : ∀ char ∈ text, isBreak11 char = false) (after : List Char) :
    StartsWord (text.flatMap doubled ++ '\'' :: after) := by
  cases text with
  | nil => exact ⟨_, _, rfl, rfl, rfl⟩
  | cons char text =>
      rw [List.flatMap_cons, doubled]
      split
      · exact ⟨_, _, rfl, rfl, rfl⟩
      · exact ⟨_, _, rfl, hgap char rfl, hbreak char List.mem_cons_self⟩

/-- A text without breaks is taken up to the quote that closes it. -/
theorem run_quotedText_unbroken {text after : List Char}
    (htext : ∀ char ∈ text, isBreak11 char = false) (hafter : after.head? ≠ some '\'')
    (hcolumn : 0 < mark.column) (front : List Char) {remaining : Nat}
    (hfuel : text.length < remaining) :
    (quotedText true remaining front).run
        (cellsFrom width mark (text.flatMap doubled ++ '\'' :: after)) =
      .ok (front ++ text,
        cellsFrom width (mark.past width (text.flatMap doubled ++ ['\''])) after) := by
  -- a word and the blanks behind it leave a shorter text, at a place that is not the start
  -- of a line either, so that no indicator of documents can be met
  induction hlength : text.length using Nat.strongRecOn generalizing text mark front remaining with
  | _ length ih =>
  obtain ⟨remaining, rfl⟩ := Nat.exists_eq_succ_of_ne_zero (Nat.ne_zero_of_lt hfuel)
  rcases word_or_gap text with hgap | ⟨word, first, gap, others, rfl, hword, hgap, hothers⟩
  · exact run_quotedText_last hgap htext hafter hcolumn front remaining
  · obtain ⟨hleft, hothersBreak⟩ := List.forall_mem_append.mp htext
    obtain ⟨hwordBreak, -⟩ := List.forall_mem_append.mp hleft
    have hquoted : (word ++ (first :: gap) ++ others).flatMap doubled =
        word.flatMap doubled ++ (first :: gap) ++ others.flatMap doubled := by
      rw [List.flatMap_append, List.flatMap_append, flatMap_doubled_gap hgap]
    have hshorter : others.length < (word ++ (first :: gap) ++ others).length := by
      simp only [List.length_append, List.length_cons]
      omega
    have hcolumnBehind : 0 < (mark.past width (word.flatMap doubled ++ first :: gap)).column := by
      rw [Mark.column_past]
      omega
    have hrest := startsWord_quoted hothers hothersBreak after
    rw [hquoted, List.append_assoc, List.append_assoc,
      run_quotedText_gap hword hwordBreak hgap hrest hcolumn front remaining,
      ih others.length (hlength ▸ hshorter) hothersBreak hcolumnBehind _ (by omega) rfl,
      ← Mark.past_append]
    simp only [List.append_assoc]

/-- A text without breaks in single quotes is read back as it was, up to the quote that closes
it. -/
theorem run_singleQuotedScalar {text after : List Char}
    (htext : ∀ char ∈ text, isBreak11 char = false) (hafter : after.head? ≠ some '\'')
    (mark : Mark) :
    singleQuotedScalar.run (cellsFrom width mark (singleQuoted text ++ after)) =
      .ok (text, cellsFrom width (mark.past width (singleQuoted text)) after) := by
  have hcolumn : 0 < (mark.next (width '\'')).column := Nat.succ_pos _
  have hfuel : text.length < (cellsFrom width (mark.next (width '\''))
      (text.flatMap doubled ++ '\'' :: after)).cells.length + 1 :=
    Nat.lt_succ_of_le (Nat.le_trans (le_length_flatMap_doubled text)
      (length_le_cellsFrom (unbroken_flatMap_doubled htext) _ _))
  rw [singleQuoted_eq, List.cons_append, List.append_assoc, cellsFrom_cons rfl]
  exact run_quotedText_unbroken htext hafter hcolumn [] hfuel

/-! ## What is never read -/

/-- Whether a character can be that of a cell.  A break that a line feed stands for never
is. -/
def IsCellChar (char : Char) : Prop :=
  char ≠ '\r' ∧ char ≠ '\u0085'

/-- Whether all cells of a text hold such characters. -/
def Marked.HoldsCellChars (text : Marked) : Prop :=
  ∀ cell ∈ text.cells, IsCellChar cell.char

theorem isCellChar_breakMeaning (char : Char) : IsCellChar (breakMeaning char) := by
  rw [breakMeaning]
  split
  · next hseparator => rcases hseparator with rfl | rfl <;> exact ⟨by decide, by decide⟩
  · exact ⟨by decide, by decide⟩

theorem isCellChar_cellAt (mark : Mark) (char : Char) :
    IsCellChar (cellAt isBreak11 mark char).char := by
  rw [cellAt]
  split
  · exact isCellChar_breakMeaning char
  · next hbreak => constructor <;> rintro rfl <;> exact hbreak rfl

theorem holdsCellChars_markedFrom (afterReturn : Bool) (mark : Mark) (chars : List Char) :
    (markedFrom isBreak11 width afterReturn mark chars).HoldsCellChars := by
  induction chars generalizing afterReturn mark with
  | nil => exact nofun
  | cons char chars ih =>
      by_cases hfeed : afterReturn = true ∧ char = '\n'
      · obtain ⟨rfl, rfl⟩ := hfeed
        rw [markedFrom_feed]
        exact ih _ _
      · rw [markedFrom_cons hfeed]
        exact List.forall_mem_cons.mpr ⟨isCellChar_cellAt mark char, ih _ _⟩

theorem Marked.HoldsCellChars.drop {text : Marked} (htext : text.HoldsCellChars) (count : Nat) :
    (text.drop count).HoldsCellChars :=
  fun cell hcell => htext cell (List.mem_of_mem_drop hcell)

theorem Marked.HoldsCellChars.ahead? {text : Marked} (htext : text.HoldsCellChars)
    {distance : Nat} (hchar : text.ahead? distance = some char) : IsCellChar char := by
  obtain ⟨cell, hcell, rfl⟩ := Option.map_eq_some_iff.mp hchar
  exact htext cell (List.mem_of_getElem? hcell)

variable {text : Marked}

/-- Whether a step that succeeds leaves such a text and reads such characters. -/
def ReadsCellChars {Result : Type} (charsOf : Result → List Char)
    (outcome : Except Fault (Result × Marked)) : Prop :=
  ∀ result next, outcome = .ok (result, next) →
    (∀ char ∈ charsOf result, IsCellChar char) ∧ next.HoldsCellChars

theorem readsCellChars_inFront (hchar : IsCellChar char)
    {outcome : Except Fault ((List Char × Bool) × Marked)}
    (houtcome : ReadsCellChars Prod.fst outcome) :
    ReadsCellChars Prod.fst (inFront char <$> outcome) := by
  rintro result next hrun
  cases outcome with
  | error fault => exact absurd hrun nofun
  | ok inner =>
      obtain ⟨rfl, rfl⟩ := Prod.mk.inj (Except.ok.inj hrun)
      obtain ⟨hothers, hafter⟩ := houtcome _ _ rfl
      exact ⟨List.forall_mem_cons.mpr ⟨hchar, hothers⟩, hafter⟩

theorem readsCellChars_quotedWord (htext : text.HoldsCellChars) (remaining : Nat) :
    ReadsCellChars Prod.fst ((quotedWord true remaining).run text) := by
  induction remaining generalizing text with
  | zero => rintro _ _ ⟨⟩; exact ⟨nofun, htext⟩
  | succ remaining ih =>
      rw [run_quotedWord]
      split
      · rintro _ _ ⟨⟩; exact ⟨nofun, htext⟩
      next char hchar =>
      split
      · rintro _ _ ⟨⟩; exact ⟨nofun, htext⟩
      split
      · exact readsCellChars_inFront ⟨by decide, by decide⟩ (ih (htext.drop 2))
      split
      · rintro _ _ ⟨⟩; exact ⟨nofun, htext⟩
      · exact readsCellChars_inFront (htext.ahead? hchar) (ih (htext.drop 1))

/-- The characters between two words. -/
def Spaces.between (spaces : Spaces) : List Char :=
  spaces.gap ++ spaces.firstBreak ++ spaces.otherBreaks

theorem Spaces.mem_between_push {spaces : Spaces} {cell : Cell}
    (hchar : char ∈ (spaces.push cell).between) : char ∈ spaces.between ∨ char = cell.char := by
  simp only [push] at hchar
  simp only [between, List.mem_append] at hchar ⊢
  split at hchar
  · split at hchar
    · simp only [List.mem_append, List.mem_singleton] at hchar
      grind
    · simp only [List.not_mem_nil, List.mem_singleton, false_or] at hchar
      exact hchar.elim .inr fun hother => .inl (.inr hother)
  · split at hchar
    · exact .inl hchar
    · simp only [List.mem_append, List.mem_singleton] at hchar
      grind

theorem Spaces.mem_meaning {spaces : Spaces} (hchar : char ∈ spaces.meaning) :
    char ∈ spaces.between ∨ char = ' ' := by
  simp only [meaning] at hchar
  simp only [between, List.mem_append]
  split at hchar
  · exact .inl (.inl (.inl hchar))
  split at hchar
  · split at hchar
    · exact .inr (List.mem_singleton.mp hchar)
    · exact .inl (.inr hchar)
  · exact .inl ((List.mem_append.mp hchar).imp .inr id)

theorem readsCellChars_takeSpaces (htext : text.HoldsCellChars) (remaining : Nat)
    {spaces : Spaces} (hspaces : ∀ char ∈ spaces.between, IsCellChar char) :
    ReadsCellChars Spaces.between ((takeSpaces 0 remaining spaces).run text) := by
  induction remaining generalizing text spaces with
  | zero => rintro _ _ ⟨⟩; exact ⟨hspaces, htext⟩
  | succ remaining ih =>
      rw [run_takeSpaces]
      split
      · rintro _ _ ⟨⟩; exact ⟨hspaces, htext⟩
      next cell rest hcells =>
      split
      · refine ih (htext.drop 1) fun char hchar => ?_
        rcases Spaces.mem_between_push hchar with hchar | rfl
        · exact hspaces char hchar
        · exact htext cell (hcells ▸ List.mem_cons_self)
      · rintro _ _ ⟨⟩; exact ⟨hspaces, htext⟩

theorem readsCellChars_quotedText (htext : text.HoldsCellChars) (remaining : Nat)
    {front : List Char} (hfront : ∀ char ∈ front, IsCellChar char) :
    ReadsCellChars id ((quotedText true remaining front).run text) := by
  induction remaining generalizing text front with
  | zero => rintro _ _ ⟨⟩; exact ⟨hfront, htext⟩
  | succ remaining ih =>
      intro result last hrun
      obtain ⟨hindicator, hend⟩ := of_run_quotedText hrun
      rw [run_quotedText hindicator hend] at hrun
      cases hword : (quotedWord true (text.cells.length + 1)).run text with
      | error fault => rw [hword] at hrun; exact absurd hrun nofun
      | ok found =>
      obtain ⟨⟨word, broken⟩, next⟩ := found
      obtain ⟨hwordChars, hnext⟩ := readsCellChars_quotedWord htext _ _ _ hword
      have hread : ∀ char ∈ front ++ word, IsCellChar char :=
        List.forall_mem_append.mpr ⟨hfront, hwordChars⟩
      rw [hword] at hrun
      simp only [bind, Except.bind] at hrun
      split at hrun
      · -- the closing quote is ahead
        obtain ⟨rfl, rfl⟩ := Prod.mk.inj (Except.ok.inj hrun)
        exact ⟨hread, hnext.drop 1⟩
      · cases hspaces : (takeSpaces 0 (next.cells.length + 1) (.mk [] [] [] broken)).run next with
        | error fault => rw [hspaces] at hrun; exact absurd hrun nofun
        | ok found =>
        -- spaces and breaks count as what stands between two words
        obtain ⟨spaces, after⟩ := found
        have hnothing : ∀ char ∈ (Spaces.mk [] [] [] broken).between, IsCellChar char :=
          List.forall_mem_nil _
        obtain ⟨hbetween, hafter⟩ := readsCellChars_takeSpaces hnext _ hnothing _ _ hspaces
        rw [hspaces] at hrun
        refine ih hafter (List.forall_mem_append.mpr ⟨hread, fun char hchar => ?_⟩) _ _ hrun
        rcases Spaces.mem_meaning hchar with hchar | rfl
        · exact hbetween char hchar
        · exact ⟨by decide, by decide⟩

/-- No scalar in single quotes is read as a text with a carriage return or a next line in
it. -/
theorem not_mem_of_run {chars text : List Char} {next : Marked}
    (hrun : singleQuotedScalar.run (cellsFrom width mark chars) = .ok (text, next)) :
    '\r' ∉ text ∧ '\u0085' ∉ text := by
  have htext : ((cellsFrom width mark chars).drop 1).HoldsCellChars :=
    (holdsCellChars_markedFrom false mark chars).drop 1
  have hnothing : ∀ char ∈ ([] : List Char), IsCellChar char := List.forall_mem_nil _
  obtain ⟨hchars, -⟩ := readsCellChars_quotedText htext _ hnothing text next hrun
  exact ⟨fun hmem => (hchars _ hmem).1 rfl, fun hmem => (hchars _ hmem).2 rfl⟩

end RamlCheck.Yaml
