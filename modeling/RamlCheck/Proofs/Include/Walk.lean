import RamlCheck.Proofs.Include.Advance

/-!
# The walk without its fuel

`scanBody` has a budget of steps, of which the length of the text is always enough.
`walk` is the walk with this budget.  Its equations say what becomes of a step, and
`walk_induct` follows its steps down to the end of the line.

A step is settled by the guards under which it comes about (`Advance.step_eq`), so that
a step over one text can be carried over to another one.  What a line begins with is
settled by what the lines before left open (`scanLine_nothing` and those behind it).
-/

namespace RamlCheck.Include

variable {indent : Nat} {stance next : Stance} {char : Char} {rest after : List Char}
  {pieces : List Piece} {carry : Carry}

/-- The walk over what is left of a line. -/
def walk (indent : Nat) (stance : Stance) (chars : List Char) : Scan :=
  scanBody indent chars.length stance chars

theorem advance_of_step {taken : Step} (hstep : step indent stance char rest = taken) :
    Advance indent stance char rest taken :=
  hstep ▸ advance_step indent stance char rest

/-- A step that goes on leaves less of the line. -/
theorem length_after_le (hstep : step indent stance char rest = .take pieces next after) :
    after.length ≤ rest.length := by
  have hparts := congrArg List.length (sourceOf_of_step hstep)
  have hpositive := List.length_pos_iff.mpr (advance_of_step hstep).sourceOf_ne_nil
  rw [List.length_append, List.length_cons] at hparts
  omega

/-- Any two budgets that both suffice give the same scan. -/
theorem scanBody_eq_of_le {chars : List Char} {fuel other : Nat} (hfuel : chars.length ≤ fuel)
    (hother : chars.length ≤ other) :
    scanBody indent fuel stance chars = scanBody indent other stance chars := by
  induction fuel generalizing other stance chars with
  | zero =>
      rw [List.length_eq_zero_iff.mp (Nat.le_zero.mp hfuel)]
      cases other <;> rfl
  | succ fuel ih =>
      cases chars with
      | nil => cases other <;> rfl
      | cons char rest =>
          rw [List.length_cons] at hfuel hother
          obtain ⟨budget, rfl⟩ : ∃ budget, other = budget + 1 :=
            Nat.exists_eq_add_of_le' (Nat.le_trans (Nat.le_add_left 1 _) hother)
          rw [scanBody, scanBody]
          cases hstep : step indent stance char rest with
          | stop carry => rfl
          | take pieces next after =>
              have hless := length_after_le hstep
              have hbudget : after.length ≤ budget := by omega
              simp only
              rw [ih (by omega) hbudget]

theorem walk_stop (hstep : step indent stance char rest = .stop carry) :
    walk indent stance (char :: rest) =
      Scan.copyRest (char :: rest) { carry, depth := stance.depth } := by
  rw [walk, List.length_cons, scanBody, hstep]

theorem walk_take (hstep : step indent stance char rest = .take pieces next after) :
    walk indent stance (char :: rest) = (walk indent next after).prepend pieces := by
  rw [walk, List.length_cons, scanBody, hstep]
  simp only
  rw [scanBody_eq_of_le (length_after_le hstep) (Nat.le_refl _), walk]

/-- What holds at the end of a line and where a walk stops, and in front of each step if
it holds behind it, holds everywhere. -/
theorem walk_induct (indent : Nat) {motive : Stance → List Char → Prop}
    (nil : ∀ stance, motive stance [])
    (stop : ∀ stance char rest carry, step indent stance char rest = .stop carry →
      motive stance (char :: rest))
    (take : ∀ stance char rest pieces next after,
      step indent stance char rest = .take pieces next after → motive next after →
        motive stance (char :: rest))
    (stance : Stance) (chars : List Char) : motive stance chars := by
  induction hlength : chars.length using Nat.strongRecOn generalizing stance chars with
  | ind length ih =>
      cases chars with
      | nil => exact nil stance
      | cons char rest =>
          cases hstep : step indent stance char rest with
          | stop carry => exact stop stance char rest carry hstep
          | take pieces next after =>
              have hless := length_after_le hstep
              rw [List.length_cons] at hlength
              exact take stance char rest pieces next after hstep
                (ih after.length (by omega) next after rfl)

/-! ## The step of an outcome -/

theorem PlainAt.nodeStep?_eq (hplain : PlainAt char rest) :
    nodeStep? indent stance char rest = none := by
  obtain ⟨⟨hsingle, hdouble⟩, ⟨hsquare, hcurly⟩, ⟨hamp, hstar, hbang⟩, hdash, hblock⟩ := hplain
  unfold nodeStep?
  split
  · contradiction
  · contradiction
  · rw [hdash rfl]; rfl
  · contradiction
  · contradiction
  · rw [hblock (.inl rfl)]; rfl
  · rw [hblock (.inr rfl)]; rfl
  · contradiction
  · contradiction
  · contradiction
  · rfl

/-- A step at the start of a node is what `nodeStep?` says, unless it is plain text. -/
theorem step_of_nodeStep? {taken : Step} (hgap : isGap char = false) (hcomment : char ≠ '#')
    (hstart : stance.nodeStart = true) (hnode : nodeStep? indent stance char rest = some taken) :
    step indent stance char rest = taken := by
  rw [step, if_neg (by simp [hgap]), if_neg (by simp [hcomment]), if_pos hstart, hnode]

/-- The guards of an outcome settle the step. -/
theorem Advance.step_eq {taken : Step} (hadvance : Advance indent stance char rest taken) :
    step indent stance char rest = taken := by
  cases hadvance with
  | gap hgap => rw [step, if_pos hgap]
  | comment hafter => rw [step, if_neg (by decide), if_pos (by simp [hafter])]
  | openQuote hstart hquote hclose =>
      -- both quotes go the same way
      rcases hquote with rfl | rfl <;>
        exact step_of_nodeStep? rfl (by decide) hstart (by simp only [nodeStep?, hclose])
  | quoted hstart hquote hclose =>
      rcases hquote with rfl | rfl <;>
        exact step_of_nodeStep? rfl (by decide) hstart
          (by simp only [nodeStep?, hclose, Stance.behind])
  | dash hstart hset =>
      exact step_of_nodeStep? rfl (by decide) hstart
        (by simp only [nodeStep?, hset, Stance.before, if_true])
  | bracket hstart hbracket =>
      rcases hbracket with rfl | rfl <;>
        exact step_of_nodeStep? rfl (by decide) hstart (by simp only [nodeStep?, Stance.before])
  | block hstart hblock hheader =>
      rcases hblock with rfl | rfl <;>
        exact step_of_nodeStep? rfl (by decide) hstart (by simp only [nodeStep?, hheader, if_true])
  | anchor hstart =>
      have hamp : inWord '&' = true := by decide
      refine step_of_nodeStep? rfl (by decide) hstart ?_
      simp [nodeStep?, drop_length_takeWhile, hamp, Stance.before]
  | aliased hstart =>
      have hstar : inWord '*' = true := by decide
      refine step_of_nodeStep? rfl (by decide) hstart ?_
      simp [nodeStep?, drop_length_takeWhile, hstar, Stance.behind]
  | reference hstart htext hreference =>
      refine step_of_nodeStep? rfl (by decide) hstart ?_
      simp only [nodeStep?, htext, tagPiece_of_referenceAt hreference, Stance.behind]
  | tag hstart hnone =>
      refine step_of_nodeStep? rfl (by decide) hstart ?_
      simp only [nodeStep?, tagPiece_of_no_reference hnone, Stance.before]
  | plain hgap hcomment hplain =>
      -- a node that could start here would be taken first
      have hnode :
          (if stance.nodeStart then nodeStep? indent stance char rest else none) = none := by
        split
        · next hstart => exact (hplain hstart).nodeStep?_eq
        · rfl
      have hnot : ¬(char = '#' && stance.afterGap) = true := by simpa using hcomment
      rw [step, if_neg (by simp [hgap]), if_neg hnot, hnode]

/-! ## The start of a line -/

/-- The stance in front of a line. -/
def Stance.fresh (depth : Nat) : Stance :=
  { nodeStart := true, afterGap := true, depth }

/-- Whether a line belongs to a block scalar whose header stands on a line with some
number of leading spaces. -/
def inBlock (header : Nat) (line : List Char) : Bool :=
  Text.isBlankText line || decide (header < leadingSpaces line)

variable {depth header : Nat} {quote : Char} {line inside : List Char}

theorem scanLine_nothing (depth : Nat) (line : List Char) :
    scanLine { carry := .nothing, depth } line = walk (leadingSpaces line) (.fresh depth) line :=
  rfl

theorem scanLine_inBlock (hline : inBlock header line = true) :
    scanLine { carry := .block header, depth } line =
      Scan.copyRest line { carry := .block header, depth } := by
  simp only [scanLine]
  exact if_pos hline

theorem scanLine_behindBlock (hline : inBlock header line = false) :
    scanLine { carry := .block header, depth } line =
      walk (leadingSpaces line) (.fresh depth) line := by
  simp only [scanLine]
  exact if_neg (Bool.eq_false_iff.mp hline)

theorem scanLine_inQuotes (hclose : closeQuote quote false line = none) :
    scanLine { carry := .quoted quote, depth } line =
      Scan.copyRest line { carry := .quoted quote, depth } := by
  simp only [scanLine, hclose]

theorem scanLine_behindQuotes (hclose : closeQuote quote false line = some (inside, after)) :
    scanLine { carry := .quoted quote, depth } line =
      (walk (leadingSpaces line) (Stance.fresh depth).behind after).prepend
        (inside.map .copied) := by
  have hlength := congrArg List.length (append_of_closeQuote hclose)
  rw [List.length_append] at hlength
  simp only [scanLine, hclose]
  rw [scanBody_eq_of_le (by omega) (Nat.le_refl _)]
  rfl

end RamlCheck.Include
