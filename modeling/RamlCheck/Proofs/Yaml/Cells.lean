import RamlCheck.Yaml.Cell

/-!
# The cells of a text

A cell stands at the place behind the text in front of its character, and the cells from
there on are those of the text behind that place (`exists_split_of_cells`).  Up to the next
break they have the characters of the text (`map_char_take`), and what comes behind are the
cells of the text from there on (`exists_cells_drop`).

The place behind some text without a break is as many columns further on
(`markedFrom_unbroken`).
-/

namespace RamlCheck.Yaml

variable {breaks : Char → Bool} {width : Char → Nat} {afterReturn : Bool} {mark : Mark}
  {char : Char} {chars : List Char} {cells others : List Cell} {cell : Cell}

/-- The cell of a character at some place. -/
def cellAt (breaks : Char → Bool) (mark : Mark) (char : Char) : Cell :=
  { char := if breaks char then breakMeaning char else char, mark, isBreak := breaks char }

/-- The place behind a character. -/
def Mark.behind (breaks : Char → Bool) (width : Char → Nat) (mark : Mark) (char : Char) : Mark :=
  if breaks char then mark.nextLine (width char) else mark.next (width char)

/-- The place behind some text, counted from the start of the text in characters. -/
def markBehind (before : List Char) : Mark :=
  (markedFrom isBreak12 (fun _ => 1) false .start before).finish

/-- A line feed behind a carriage return belongs to the break in front of it. -/
theorem markedFrom_feed (chars : List Char) :
    markedFrom breaks width true mark ('\n' :: chars) =
      markedFrom breaks width false { mark with index := mark.index + width '\n' } chars := by
  rw [markedFrom, if_pos (by simp)]

/-- Any other character makes a cell. -/
theorem markedFrom_cons (hfeed : ¬(afterReturn = true ∧ char = '\n')) (chars : List Char) :
    markedFrom breaks width afterReturn mark (char :: chars) =
      (markedFrom breaks width (breaks char && char = '\r') (mark.behind breaks width char)
        chars).cons (cellAt breaks mark char) := by
  rw [markedFrom, if_neg (by simpa using hfeed), cellAt, Mark.behind]
  cases breaks char <;> simp

/-- Where a cell stands, the text falls apart. -/
theorem exists_split_of_cells
    (hcells : (markedFrom breaks width afterReturn mark chars).cells = cells ++ cell :: others) :
    ∃ before char after, chars = before ++ char :: after ∧
      cell.mark = (markedFrom breaks width afterReturn mark before).finish ∧
      cell :: others = (markedFrom breaks width false cell.mark (char :: after)).cells := by
  induction chars generalizing afterReturn mark cells with
  | nil => simp [markedFrom] at hcells
  | cons char rest ih =>
      by_cases hfeed : afterReturn = true ∧ char = '\n'
      · obtain ⟨rfl, rfl⟩ := hfeed
        rw [markedFrom_feed] at hcells
        obtain ⟨before, next, after, rfl, hmark, hothers⟩ := ih hcells
        exact ⟨'\n' :: before, next, after, rfl, by rw [markedFrom_feed, hmark], hothers⟩
      rw [markedFrom_cons hfeed, Marked.cons] at hcells
      cases cells with
      | nil =>
          obtain ⟨rfl, rfl⟩ := List.cons.inj hcells
          exact ⟨[], char, rest, rfl, rfl, by rw [markedFrom_cons (by simp)]; rfl⟩
      | cons first cells =>
          obtain ⟨before, next, after, rfl, hmark, hothers⟩ := ih (List.cons.inj hcells).2
          exact ⟨char :: before, next, after, rfl, by rw [markedFrom_cons hfeed, hmark]; rfl,
            hothers⟩

/-- Cells up to the next break have the characters of the text. -/
theorem map_char_take {count : Nat}
    (hcells : ∀ cell ∈ (markedFrom breaks width false mark chars).cells.take count,
      cell.isBreak = false) :
    ((markedFrom breaks width false mark chars).cells.take count).map (·.char) =
      chars.take count := by
  induction chars generalizing mark count with
  | nil => simp [markedFrom]
  | cons char rest ih =>
      cases count with
      | zero => rfl
      | succ count =>
          rw [markedFrom_cons (by simp), Marked.cons, List.take_succ_cons] at hcells ⊢
          obtain ⟨hbreak, hrest⟩ := List.forall_mem_cons.mp hcells
          have hbreak : breaks char = false := hbreak
          rw [hbreak, Bool.false_and] at hrest ⊢
          rw [List.map_cons, ih hrest, List.take_succ_cons, cellAt, hbreak]
          rfl

/-- Behind cells without a break come those of the text behind them. -/
theorem exists_cells_drop {count : Nat}
    (hcells : ∀ cell ∈ (markedFrom breaks width false mark chars).cells.take count,
      cell.isBreak = false) :
    ∃ reached, (markedFrom breaks width false mark chars).cells.drop count =
      (markedFrom breaks width false reached (chars.drop count)).cells := by
  induction chars generalizing mark count with
  | nil => exact ⟨mark, by simp [markedFrom]⟩
  | cons char rest ih =>
      cases count with
      | zero => exact ⟨mark, rfl⟩
      | succ count =>
          rw [markedFrom_cons (by simp), Marked.cons, List.take_succ_cons] at hcells
          obtain ⟨hbreak, hrest⟩ := List.forall_mem_cons.mp hcells
          have hbreak : breaks char = false := hbreak
          rw [hbreak, Bool.false_and] at hrest
          rw [markedFrom_cons (by simp), hbreak, Bool.false_and]
          exact ih hrest

/-- Text without a break takes as many columns as it has characters. -/
theorem markedFrom_unbroken {front : List Char} (hfeed : breaks '\n' = true) (hfront : front ≠ [])
    (hunbroken : ∀ char ∈ front, breaks char = false) (chars : List Char) :
    (markedFrom breaks (fun _ => 1) afterReturn mark (front ++ chars)).finish =
      (markedFrom breaks (fun _ => 1) false
        { mark with index := mark.index + front.length, column := mark.column + front.length }
        chars).finish := by
  induction front generalizing afterReturn mark with
  | nil => contradiction
  | cons char front ih =>
      obtain ⟨hchar, hrest⟩ := List.forall_mem_cons.mp hunbroken
      have hnot : ¬(afterReturn = true ∧ char = '\n') := by
        rintro ⟨-, rfl⟩
        rw [hfeed] at hchar
        contradiction
      rw [List.cons_append, markedFrom_cons hnot, Marked.cons, hchar, Bool.false_and,
        Mark.behind, if_neg (by simp [hchar]), Mark.next]
      cases front with
      | nil => rfl
      | cons next front =>
          rw [ih (List.cons_ne_nil _ _) hrest]
          simp only [List.length_cons, Nat.add_assoc, Nat.add_comm 1]

end RamlCheck.Yaml
