import RamlCheck.Proofs.Include.Pieces
import RamlCheck.Proofs.Include.Quoting
import RamlCheck.Proofs.Include.Walk

/-!
# Texts without references

In the text that is read for values each reference has become a scalar in single quotes.
Scanned once more, such a text shows the same pieces, but for the references, of which
only characters are left to copy (`scan_valuesText`).  So it is its own text for values,
and for positions it reads like the text it was made from (`valuesText_settled`).

## Strategy

A walk over a line and a walk over the rewritten line are followed side by side.  What a
step sees ahead may have been rewritten: a line and its rewritten form agree up to a
place where one has the `!` of a reference and the other a quote (`Parted`), and none of
the tests on what is ahead tells these two apart, or else they cannot come about where
the test is made, because no node may start there.
-/

namespace RamlCheck.Include

/-- What is taken for a piece in the text that is read for values. -/
def Piece.settled : Piece → List Piece
  | .reference _ target => (singleQuoted (includeMark ++ target)).map .copied
  | piece => [piece]

@[simp] theorem flatMap_forValues_copied (chars : List Char) :
    (chars.map Piece.copied).flatMap Piece.forValues = chars := by
  rw [List.flatMap_map]
  exact List.flatMap_singleton' chars

@[simp] theorem flatMap_forPositions_copied (chars : List Char) :
    (chars.map Piece.copied).flatMap Piece.forPositions = chars := by
  rw [List.flatMap_map]
  exact List.flatMap_singleton' chars

@[simp] theorem flatMap_settled_copied (chars : List Char) :
    (chars.map Piece.copied).flatMap Piece.settled = chars.map .copied := by
  rw [List.flatMap_map]
  exact (List.map_eq_flatMap).symm

theorem flatMap_forValues_settled (pieces : List Piece) :
    (pieces.flatMap Piece.settled).flatMap Piece.forValues = pieces.flatMap Piece.forValues := by
  rw [List.flatMap_assoc]
  congr 1
  funext piece
  cases piece with
  | reference gap target => exact flatMap_forValues_copied _
  | _ => exact List.flatMap_singleton _ _

theorem flatMap_forPositions_settled (pieces : List Piece) :
    (pieces.flatMap Piece.settled).flatMap Piece.forPositions =
      pieces.flatMap Piece.forPositions := by
  rw [List.flatMap_assoc]
  congr 1
  funext piece
  cases piece with
  | reference gap target => exact flatMap_forPositions_copied _
  | _ => exact List.flatMap_singleton _ _

/-! ## A text and its rewritten form -/

/-- Two texts agree, or do so up to a place where one has a `!` and the other a quote.
If no node may start in front, there is a `:` or a `,` before that place. -/
def Parted (nodeStart : Bool) (chars shown : List Char) : Prop :=
  shown = chars ∨ ∃ front behind other, chars = front ++ '!' :: behind ∧
    shown = front ++ '\'' :: other ∧ (nodeStart = false → ':' ∈ front ∨ ',' ∈ front)

namespace Parted

variable {nodeStart : Bool} {chars shown : List Char}

/-- Both texts still part where they did behind a common text, provided that this text
lets a node start if a node could start behind it alone. -/
theorem behind {other : Bool} {front : List Char} (hparted : Parted nodeStart chars shown)
    (hopens : other = false → nodeStart = true → ':' ∈ front ∨ ',' ∈ front) :
    Parted other (front ++ chars) (front ++ shown) := by
  rcases hparted with rfl | ⟨rest, behind, tail, rfl, rfl, hrest⟩
  · exact .inl rfl
  · refine .inr ⟨front ++ rest, behind, tail, by simp, by simp, fun hother => ?_⟩
    cases nodeStart with
    | true => exact (hopens hother rfl).imp (List.mem_append_left _) (List.mem_append_left _)
    | false => exact (hrest rfl).imp (List.mem_append_right _) (List.mem_append_right _)

/-- Both texts start alike if the first one does not start with a reference. -/
theorem head?_eq (hparted : Parted nodeStart chars shown) (hbang : chars.head? ≠ some '!') :
    shown.head? = chars.head? := by
  rcases hparted with rfl | ⟨_ | ⟨first, front⟩, behind, other, rfl, rfl, -⟩
  · rfl
  · exact absurd rfl hbang
  · rfl

theorem head?_of_behind (hparted : Parted false chars shown) : shown.head? = chars.head? := by
  rcases hparted with rfl | ⟨_ | ⟨first, front⟩, behind, other, rfl, rfl, hfront⟩
  · rfl
  · simp at hfront
  · rfl

theorem setsOff_eq (hparted : Parted nodeStart chars shown) : setsOff shown = setsOff chars := by
  rcases hparted with rfl | ⟨_ | ⟨first, front⟩, behind, other, rfl, rfl, -⟩ <;> rfl

/-- A test that fails on both the `!` and the quote stops at the same place in both texts. -/
theorem takeWhile_eq {test : Char → Bool} (hparted : Parted nodeStart chars shown)
    (hbang : test '!' = false) (hquote : test '\'' = false) :
    shown.takeWhile test = chars.takeWhile test := by
  rcases hparted with rfl | ⟨front, behind, other, rfl, rfl, -⟩
  · rfl
  · rw [List.takeWhile_append, List.takeWhile_append]
    simp [hbang, hquote]

theorem dropWhile {test : Char → Bool} (hparted : Parted true chars shown)
    (hbang : test '!' = false) (hquote : test '\'' = false) :
    Parted true (chars.dropWhile test) (shown.dropWhile test) := by
  rcases hparted with rfl | ⟨front, behind, other, rfl, rfl, -⟩
  · exact .inl rfl
  · refine .inr ⟨front.dropWhile test, behind, other, ?_, ?_, by simp⟩
    · rw [List.dropWhile_append]
      split <;> simp_all
    · rw [List.dropWhile_append]
      split <;> simp_all

theorem leadingSpaces_eq (hparted : Parted nodeStart chars shown) :
    leadingSpaces shown = leadingSpaces chars := by
  rw [leadingSpaces, leadingSpaces, hparted.takeWhile_eq (by decide) (by decide)]

theorem isBlankText_eq (hparted : Parted nodeStart chars shown) :
    Text.isBlankText shown = Text.isBlankText chars := by
  have hbang : Text.isBlank '!' = false := by decide
  have hquote : Text.isBlank '\'' = false := by decide
  rcases hparted with rfl | ⟨front, behind, other, rfl, rfl, -⟩
  · rfl
  · simp [Text.isBlankText, hbang, hquote]

theorem inBlock_eq (header : Nat) (hparted : Parted nodeStart chars shown) :
    inBlock header shown = inBlock header chars := by
  rw [inBlock, inBlock, hparted.leadingSpaces_eq, hparted.isBlankText_eq]

end Parted

/-! ## Headers of block scalars -/

theorem dropWhile_append_of_mem (test : Char → Bool) {front : List Char} {char : Char}
    (hchar : char ∈ front) (htest : test char = false) (rest : List Char) :
    (front ++ rest).dropWhile test = front.dropWhile test ++ rest ∧
      char ∈ front.dropWhile test := by
  induction front with
  | nil => simp at hchar
  | cons first others ih =>
      cases hfirst : test first with
      | false => simpa [hfirst] using hchar
      | true =>
          have hmem : char ∈ others := by
            rcases List.mem_cons.mp hchar with rfl | hmem
            · rw [htest] at hfirst; contradiction
            · exact hmem
          simpa [hfirst] using ih hmem

/-- A character that says how a block scalar is indented or chomped. -/
def isModifier (char : Char) : Bool :=
  char = '+' || char = '-' || ('0' ≤ char && char ≤ '9')

/-- What decides on a header of a block scalar stands in front of any character that no
header holds. -/
theorem isBlockHeader_append {front : List Char} {char : Char} (hchar : char ∈ front)
    (hkind : char = ':' ∨ char = ',') (rest : List Char) :
    isBlockHeader (front ++ rest) = isBlockHeader front := by
  have hmodifier : isModifier char = false := by rcases hkind with rfl | rfl <;> decide
  have hblank : Text.isBlank char = false := by rcases hkind with rfl | rfl <;> decide
  have hheader : ∀ chars, isBlockHeader chars =
      ((Text.trimStart (chars.dropWhile isModifier)).isEmpty ||
        ((Text.trimStart (chars.dropWhile isModifier)).head? = some '#' &&
          decide ((Text.trimStart (chars.dropWhile isModifier)).length <
            (chars.dropWhile isModifier).length))) := fun _ => rfl
  obtain ⟨hmodifiers, hmem⟩ := dropWhile_append_of_mem isModifier hchar hmodifier rest
  obtain ⟨hblanks, htrimmed⟩ := dropWhile_append_of_mem Text.isBlank hmem hblank rest
  obtain ⟨first, others, hcons⟩ := List.exists_cons_of_ne_nil (List.ne_nil_of_mem htrimmed)
  have hless : others.length + rest.length + 1 < (front.dropWhile isModifier).length + rest.length ↔
      others.length + 1 < (front.dropWhile isModifier).length := by omega
  rw [hheader, hheader, Text.trimStart, Text.trimStart, hmodifiers, hblanks, hcons]
  simp [hless]

theorem Parted.isBlockHeader_eq {chars shown : List Char} (hparted : Parted false chars shown) :
    isBlockHeader shown = isBlockHeader chars := by
  rcases hparted with rfl | ⟨front, behind, other, rfl, rfl, hfront⟩
  · rfl
  · rcases hfront rfl with hmem | hmem
    · rw [isBlockHeader_append hmem (.inl rfl), isBlockHeader_append hmem (.inl rfl)]
    · rw [isBlockHeader_append hmem (.inr rfl), isBlockHeader_append hmem (.inr rfl)]

/-! ## What makes a tag a reference -/

/-- Whether a tag `!include` with some text behind it is a reference: a gap follows, and
behind it something that a target can hold. -/
def OpensTarget (behind : List Char) : Prop :=
  (∃ char ∈ behind.head?, isGap char = true) ∧
    ∃ char ∈ (behind.dropWhile isGap).head?, inTarget char = true

theorem isGap_of_inTarget {char : Char} (hchar : inTarget char = true) : isGap char = false := by
  cases hgap : isGap char with
  | false => rfl
  | true => rw [inTarget_of_isGap hgap] at hchar; contradiction

theorem ReferenceAt.opensTarget {gap target after : List Char}
    (hreference : ReferenceAt gap target after) : OpensTarget (gap ++ target ++ after) := by
  obtain ⟨first, others, rfl⟩ := List.exists_cons_of_ne_nil hreference.gap_ne
  obtain ⟨start, more, rfl⟩ := List.exists_cons_of_ne_nil hreference.target_ne
  have hstart := hreference.target_inTarget start (by simp)
  have hrest : ((first :: others) ++ (start :: more) ++ after).dropWhile isGap =
      start :: more ++ after := by
    rw [List.append_assoc]
    refine (takeWhile_append_of_stops hreference.gap_isGap fun char hchar => ?_).2
    rw [← Option.some.inj hchar]
    exact isGap_of_inTarget hstart
  refine ⟨⟨first, rfl, hreference.gap_isGap first (by simp)⟩, start, ?_, hstart⟩
  rw [hrest]
  rfl

theorem OpensTarget.exists_referenceAt {behind : List Char} (hopens : OpensTarget behind) :
    ∃ gap target after, behind = gap ++ target ++ after ∧ ReferenceAt gap target after := by
  obtain ⟨⟨first, hfirst, hgap⟩, start, hstart, htarget⟩ := hopens
  refine ⟨behind.takeWhile isGap, (behind.dropWhile isGap).takeWhile inTarget,
    (behind.dropWhile isGap).dropWhile inTarget, ?_, ?_, ?_, ?_, ?_, ?_⟩
  · rw [List.append_assoc, List.takeWhile_append_dropWhile, List.takeWhile_append_dropWhile]
  · obtain ⟨others, rfl⟩ := List.head?_eq_some_iff.mp hfirst
    simp [hgap]
  · exact fun char hchar => List.all_eq_true.mp List.all_takeWhile char hchar
  · obtain ⟨others, hrest⟩ := List.head?_eq_some_iff.mp hstart
    simp [hrest, htarget]
  · exact fun char hchar => List.all_eq_true.mp List.all_takeWhile char hchar
  · exact fun char hchar => not_of_mem_head?_dropWhile hchar

/-- A rewritten text opens no target that was not there before. -/
theorem Parted.opensTarget {chars shown : List Char} (hparted : Parted true chars shown)
    (hbang : chars.head? ≠ some '!') (hopens : OpensTarget shown) : OpensTarget chars := by
  obtain ⟨⟨first, hfirst, hgap⟩, start, hstart, htarget⟩ := hopens
  refine ⟨⟨first, hparted.head?_eq hbang ▸ hfirst, hgap⟩, ?_⟩
  have hrest : Parted true (chars.dropWhile isGap) (shown.dropWhile isGap) :=
    hparted.dropWhile (by decide) (by decide)
  by_cases hother : (chars.dropWhile isGap).head? = some '!'
  · exact ⟨'!', hother, by decide⟩
  · exact ⟨start, hrest.head?_eq hother ▸ hstart, htarget⟩

/-! ## A step -/

section Step

variable {indent : Nat} {stance next : Stance} {char : Char} {rest after shown : List Char}
  {pieces : List Piece}

/-- A step takes a reference where a node may start, or what it takes stays as it is. -/
theorem Advance.forValues_cases
    (hstep : Advance indent stance char rest (.take pieces next after)) :
    (∃ gap target, stance.nodeStart = true ∧ char = '!' ∧ pieces = [.reference gap target]) ∨
      pieces.flatMap Piece.forValues = sourceOf pieces := by
  cases hstep with
  | reference hstart => exact .inl ⟨_, _, hstart, rfl, rfl⟩
  | quoted => exact .inr (by rw [flatMap_forValues_copied, sourceOf_copied])
  | _ => exact .inr rfl

/-- Only behind a `:` or a `,` may a node start again. -/
theorem Advance.opens (hstep : Advance indent stance char rest (.take pieces next after))
    (hstart : stance.nodeStart = false) (hnext : next.nodeStart = true) :
    ':' ∈ sourceOf pieces ∨ ',' ∈ sourceOf pieces := by
  cases hstep with
  | plain =>
      simp only [startsNode, Bool.or_eq_true, Bool.and_eq_true, decide_eq_true_eq] at hnext
      rcases hnext with ⟨rfl, -⟩ | ⟨rfl, -⟩ <;> simp [Piece.source]
  | gap => exact absurd (hstart.symm.trans hnext) (by decide)
  | _ => simp_all

/-- What is left of a line and its rewritten form part at the first reference. -/
theorem parted_walk (indent : Nat) (stance : Stance) (chars : List Char) :
    Parted stance.nodeStart chars ((walk indent stance chars).pieces.flatMap Piece.forValues) := by
  induction stance, chars using walk_induct indent with
  | nil stance => exact .inl rfl
  | stop stance char rest carry hstep =>
      rw [walk_stop hstep]
      exact .inl (flatMap_forValues_copied _)
  | take stance char rest pieces next after hstep ih =>
      have hadvance := advance_of_step hstep
      rw [walk_take hstep, Scan.prepend, List.flatMap_append]
      rcases hadvance.forValues_cases with ⟨gap, target, hstart, rfl, rfl⟩ | hsame
      · exact .inr ⟨[], rest, _, rfl, rfl, by simp [hstart]⟩
      · rw [hsame, ← sourceOf_of_step hstep]
        exact ih.behind hadvance.opens

/-- Where a word ends, a rewritten text does not start with more of it. -/
theorem stops_of_parted {nodeStart : Bool}
    (hparted : Parted nodeStart (rest.dropWhile inWord) shown) :
    (rest.dropWhile inWord).head? ≠ some '!' ∧ ∀ char ∈ shown.head?, inWord char = false := by
  have hbang : (rest.dropWhile inWord).head? ≠ some '!' := by
    intro hhead
    have hword := not_of_mem_head?_dropWhile (Option.mem_def.mpr hhead)
    contradiction
  refine ⟨hbang, fun char hchar => ?_⟩
  rw [hparted.head?_eq hbang] at hchar
  exact not_of_mem_head?_dropWhile hchar

/-- A word is read from a rewritten text as it was read from the text. -/
theorem word_of_parted {nodeStart : Bool}
    (hparted : Parted nodeStart (rest.dropWhile inWord) shown) :
    (rest.takeWhile inWord ++ shown).takeWhile inWord = rest.takeWhile inWord ∧
      (rest.takeWhile inWord ++ shown).dropWhile inWord = shown :=
  takeWhile_append_of_stops (fun char hchar => List.all_eq_true.mp List.all_takeWhile char hchar)
    (stops_of_parted hparted).2

/-- What was a tag and no reference is none in a rewritten text either. -/
theorem no_reference_of_parted
    (hnone : ∀ gap target after, '!' :: rest = includeTag ++ gap ++ target ++ after →
      ¬ ReferenceAt gap target after)
    (hparted : Parted true (rest.dropWhile inWord) shown) :
    ∀ gap target after,
      '!' :: (rest.takeWhile inWord ++ shown) = includeTag ++ gap ++ target ++ after →
        ¬ ReferenceAt gap target after := by
  intro gap target after htext hreference
  have hinside : ∀ char ∈ '!' :: rest.takeWhile inWord, inWord char = true := by
    intro char hchar
    rcases List.mem_cons.mp hchar with rfl | hchar
    · decide
    · exact List.all_eq_true.mp List.all_takeWhile char hchar
  obtain ⟨hbang, hstops⟩ := stops_of_parted hparted
  have hgap : ∀ char ∈ (gap ++ target ++ after).head?, inWord char = false := by
    obtain ⟨⟨first, hfirst, hgap⟩, -⟩ := hreference.opensTarget
    intro char hchar
    rw [Option.mem_unique hchar hfirst]
    exact inWord_of_isGap hgap
  -- the word is the tag on both sides, so what follows it is the same too
  obtain ⟨hword, hbehind⟩ := takeWhile_append_of_stops hinside hstops
  obtain ⟨htag, hafter⟩ := takeWhile_append_of_stops
    (fun char hchar => inWord_of_mem_includeTag hchar) hgap
  rw [List.cons_append, htext, List.append_assoc, List.append_assoc, ← List.append_assoc gap, htag]
    at hword
  rw [List.cons_append, htext, List.append_assoc, List.append_assoc, ← List.append_assoc gap,
    hafter] at hbehind
  have hopens := hparted.opensTarget hbang (hbehind ▸ hreference.opensTarget)
  obtain ⟨gap', target', after', hrest, hreference'⟩ := hopens.exists_referenceAt
  refine hnone gap' target' after' ?_ hreference'
  calc '!' :: rest = ('!' :: rest.takeWhile inWord) ++ rest.dropWhile inWord := by simp
    _ = includeTag ++ gap' ++ target' ++ after' := by rw [← hword, hrest]; simp

/-- A step over a rewritten text takes what is left of the pieces and goes on from the
same stance. -/
theorem Advance.settled (hstep : Advance indent stance char rest (.take pieces next after))
    (hparted : Parted next.nodeStart after shown) :
    ∃ first others, pieces.flatMap Piece.forValues ++ shown = first :: others ∧
      Advance indent stance first others (.take (pieces.flatMap Piece.settled) next shown) := by
  cases hstep with
  | gap hgap => exact ⟨_, _, rfl, .gap hgap⟩
  | @quoted _ _ inside _ hstart hquote hclose =>
      refine ⟨char, inside ++ shown, by simp [Piece.forValues, Piece.source], ?_⟩
      rw [flatMap_settled_copied]
      refine .quoted hstart hquote (closeQuote_behind hclose fun hhead => ?_)
      rwa [← hparted.head?_of_behind]
  | dash hstart hset => exact ⟨_, _, rfl, .dash hstart (hparted.setsOff_eq.trans hset)⟩
  | bracket hstart hbracket => exact ⟨_, _, rfl, .bracket hstart hbracket⟩
  | anchor hstart =>
      obtain ⟨hword, hbehind⟩ := word_of_parted hparted
      have hanchor : Advance indent stance '&' (rest.takeWhile inWord ++ shown) _ := .anchor hstart
      rw [hword, hbehind] at hanchor
      exact ⟨_, _, by simp [Piece.forValues, Piece.source], hanchor⟩
  | aliased hstart =>
      obtain ⟨hword, hbehind⟩ := word_of_parted hparted
      have haliased : Advance indent stance '*' (rest.takeWhile inWord ++ shown) _ :=
        .aliased hstart
      rw [hword, hbehind] at haliased
      exact ⟨_, _, by simp [Piece.forValues, Piece.source], haliased⟩
  | @reference _ gap target _ hstart htext hreference =>
      -- the quoted form closes where the target ended, since no target ends in front of a quote
      have hhead : shown.head? ≠ some '\'' := by
        intro hhead
        rw [hparted.head?_of_behind] at hhead
        have hstops := hreference.after_stops '\'' hhead
        contradiction
      obtain ⟨inside, hform, hclose⟩ := closeQuote_singleQuoted (includeMark ++ target) hhead
      refine ⟨'\'', inside ++ shown, ?_, ?_⟩
      · simp [Piece.forValues, hform]
      · simp only [List.flatMap_cons, List.flatMap_nil, List.append_nil, Piece.settled, hform]
        exact .quoted hstart (.inl rfl) hclose
  | tag hstart hnone =>
      obtain ⟨hword, hbehind⟩ := word_of_parted hparted
      have htag : Advance indent stance '!' (rest.takeWhile inWord ++ shown) _ :=
        .tag hstart (no_reference_of_parted hnone hparted)
      rw [hword, hbehind] at htag
      exact ⟨_, _, by simp [Piece.forValues, Piece.source], htag⟩
  | plain hgap hcomment hplain =>
      refine ⟨char, shown, rfl, ?_⟩
      have hsame : startsNode stance.depth char rest = startsNode stance.depth char shown := by
        rw [startsNode, startsNode, hparted.setsOff_eq]
      rw [hsame]
      refine .plain hgap hcomment fun hstart => ?_
      obtain ⟨hquote, hbracket, hproperty, hdash, hblock⟩ := hplain hstart
      refine ⟨hquote, hbracket, hproperty, fun hchar => ?_, fun hchar => ?_⟩
      · exact hparted.setsOff_eq.trans (hdash hchar)
      · -- behind an indicator of a block scalar that is plain text no node starts
        have hbehind : startsNode stance.depth char rest = false := by
          rcases hchar with rfl | rfl <;> simp [startsNode]
        simp only [hbehind] at hparted
        exact hparted.isBlockHeader_eq.trans (hblock hchar)

end Step

/-! ## A walk, a line, a text -/

/-- The walk over a rewritten text takes what is left of the pieces and leaves the same
open. -/
theorem walk_settled (indent : Nat) (stance : Stance) (chars : List Char) :
    walk indent stance ((walk indent stance chars).pieces.flatMap Piece.forValues) =
      { pieces := (walk indent stance chars).pieces.flatMap Piece.settled
        after := (walk indent stance chars).after } := by
  induction stance, chars using walk_induct indent with
  | nil stance => rfl
  | stop stance char rest carry hstep =>
      simp only [walk_stop hstep, Scan.copyRest, flatMap_forValues_copied, flatMap_settled_copied]
  | take stance char rest pieces next after hstep ih =>
      obtain ⟨first, others, htext, hshown⟩ :=
        (advance_of_step hstep).settled (parted_walk indent next after)
      rw [walk_take hstep, Scan.prepend, List.flatMap_append, htext, walk_take hshown.step_eq, ih,
        Scan.prepend, List.flatMap_append]

theorem scanLine_settled (state : State) (line : List Char) :
    scanLine state ((scanLine state line).pieces.flatMap Piece.forValues) =
      { pieces := (scanLine state line).pieces.flatMap Piece.settled
        after := (scanLine state line).after } := by
  have hwalk := walk_settled (leadingSpaces line) (.fresh state.depth) line
  have hparted := parted_walk (leadingSpaces line) (.fresh state.depth) line
  rcases state with ⟨_ | quote | header, depth⟩
  · rw [scanLine_nothing, scanLine_nothing, hparted.leadingSpaces_eq, hwalk]
  · cases hclose : closeQuote quote false line with
    | none =>
        rw [scanLine_inQuotes hclose]
        simp only [Scan.copyRest, flatMap_forValues_copied, flatMap_settled_copied]
        rw [scanLine_inQuotes hclose, Scan.copyRest]
    | some closed =>
        obtain ⟨inside, after⟩ := closed
        -- behind the closing quote the walk goes on as in the line itself
        have hbehind := parted_walk (leadingSpaces line) (Stance.fresh depth).behind after
        have hspaces : Parted true (inside ++ after) _ := hbehind.behind (by simp)
        replace hspaces := hspaces.leadingSpaces_eq
        rw [append_of_closeQuote hclose] at hspaces
        have hstill := closeQuote_behind hclose fun hhead => hbehind.head?_of_behind ▸ hhead
        rw [scanLine_behindQuotes hclose]
        simp only [Scan.prepend, List.flatMap_append, flatMap_forValues_copied,
          flatMap_settled_copied]
        rw [scanLine_behindQuotes hstill, hspaces, walk_settled, Scan.prepend]
  · cases hline : inBlock header line with
    | true =>
        rw [scanLine_inBlock hline]
        simp only [Scan.copyRest, flatMap_forValues_copied, flatMap_settled_copied]
        rw [scanLine_inBlock hline, Scan.copyRest]
    | false =>
        -- the line keeps its indentation, so it stays outside of the block
        rw [scanLine_behindBlock hline, scanLine_behindBlock (hparted.inBlock_eq header ▸ hline),
          hparted.leadingSpaces_eq, hwalk]

/-- A scanned line of which the text for values is scanned. -/
def ScannedLine.settled (line : ScannedLine) : ScannedLine :=
  { line with pieces := line.pieces.flatMap Piece.settled }

theorem scanLines_settled (state : State) (lines : List (List Char)) :
    scanLines state ((scanLines state lines).map (·.shownWith Piece.forValues)) =
      (scanLines state lines).map ScannedLine.settled := by
  induction lines generalizing state with
  | nil => rfl
  | cons line rest ih =>
      let scanned : ScannedLine :=
        { pieces := (scanLine state (Text.splitEnding line).1).pieces
          ending := (Text.splitEnding line).2 }
      have hsplit : Text.splitEnding (scanned.shownWith Piece.forValues) = _ :=
        showing_forValues.splitEnding_shownWith (fun piece hpiece => wellFormed_scanLine hpiece)
          (sourceOf_scanLine state (Text.splitEnding line).1) rfl
      rw [scanLines_cons, List.map_cons, scanLines_cons, hsplit, scanLine_settled, ih]
      rfl

/-- The pieces of the text for values are those of the text, without its references. -/
theorem scan_valuesText (text : String) :
    scan (valuesText text) = (scan text).map ScannedLine.settled := by
  rw [scan, valuesText, cutLines_render showing_forValues]
  exact scanLines_settled _ _

theorem includesOfLine_of_no_reference {pieces : List Piece}
    (hpieces : ∀ gap target, .reference gap target ∉ pieces) (line column : Nat) :
    includesOfLine line column pieces = [] := by
  induction pieces generalizing column with
  | nil => rfl
  | cons piece rest ih =>
      have hrest := ih (fun gap target hmem => hpieces gap target (List.mem_cons_of_mem _ hmem))
        (column + piece.source.length)
      cases piece with
      | reference gap target => exact absurd List.mem_cons_self (hpieces gap target)
      | _ => exact hrest

theorem no_reference_settled (pieces : List Piece) (gap target : List Char) :
    .reference gap target ∉ pieces.flatMap Piece.settled := by
  intro hmem
  obtain ⟨piece, -, hpiece⟩ := List.mem_flatMap.mp hmem
  cases piece <;> simp [Piece.settled] at hpiece

theorem includesOfLines_settled (line : Nat) (lines : List ScannedLine) :
    includesOfLines line (lines.map ScannedLine.settled) = [] := by
  induction lines generalizing line with
  | nil => rfl
  | cons first rest ih =>
      rw [List.map_cons, includesOfLines, ih, List.append_nil]
      exact includesOfLine_of_no_reference (no_reference_settled first.pieces) line 1

theorem render_settled {shown : Piece → List Char}
    (hshown : ∀ pieces : List Piece,
      (pieces.flatMap Piece.settled).flatMap shown = pieces.flatMap shown)
    (lines : List ScannedLine) :
    render shown (lines.map ScannedLine.settled) = render shown lines := by
  simp only [render, List.flatMap_map, ScannedLine.settled, hshown]

/-- The text that is read for values has no references left: made into a text for values
once more it stays as it is, and made into one for positions it becomes what the text
itself becomes. -/
theorem valuesText_absorbed (text : String) :
    valuesText (valuesText text) = valuesText text ∧ includesOf (valuesText text) = [] ∧
      positionsText (valuesText text) = positionsText text := by
  refine ⟨?_, ?_, ?_⟩
  · rw [valuesText, scan_valuesText, render_settled flatMap_forValues_settled, ← valuesText]
  · rw [includesOf, scan_valuesText, includesOfLines_settled]
  · rw [positionsText, scan_valuesText, render_settled flatMap_forPositions_settled,
      ← positionsText]

end RamlCheck.Include
