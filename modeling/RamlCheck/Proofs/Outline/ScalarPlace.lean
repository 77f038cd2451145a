import RamlCheck.Proofs.Outline.Standing

/-!
# Where scalars are read

A plain scalar stands, up to its first fold, where it is read (`spec_scanPlain`).  A block
scalar stands where its first line does, behind the breaks that come first; one without a
line holds only breaks (`spec_scanBlock`).

## Strategy

The words of a plain scalar, with the blanks between them, are what has been taken until its
first line is left; from then on they only get more (`Taking`).  The lines of a block are
added to what has been read before.  So the first round says where the block begins, and of
all others it is enough to know that they leave its beginning as it is
(`spec_blockLines_prefix`).

The loops over blanks and over empty lines have as many rounds as there are cells ahead, and
one more.  Each round takes a cell (`shorter_drop`), so that they end where no blank is ahead
(`settled_skipToToken`) and where no break is (`spec_blockBreaks`).
-/

namespace RamlCheck.Outline

open Std.Do
open Yaml (Mark Marked Token Spaces Cell Chomping)
open Outline.Lex
open Reader (Leads)

set_option mvcgen.warning false

variable {text : String}

/-! ## Where a scalar begins -/

/-- Whether only spaces and tabs are ahead on a line. -/
def LineEnds (ahead : List Cell) : Prop :=
  ∀ cell ∈ (ahead.find? fun cell => cell.isBreak || !(cell.char = ' ' || cell.char = '\t')),
    cell.isBreak = true

theorem lineEnds_of_break {cell : Cell} (hbreak : cell.isBreak = true) (others : List Cell) :
    LineEnds (cell :: others) := by
  intro first hfirst
  rw [List.find?_cons_of_pos (by rw [hbreak]; rfl)] at hfirst
  exact Option.some.inj hfirst ▸ hbreak

/-- Where a line ends in the cells of a text, it ends in the text. -/
theorem endsLine_of_cells {mark : Mark} {chars : List Char}
    (hends : LineEnds (Yaml.markedFrom Yaml.isBreak12 (fun _ => 1) false mark chars).cells) :
    EndsLine chars := by
  induction chars generalizing mark with
  | nil => exact fun _ hchar => absurd hchar (Option.not_mem_none _)
  | cons char rest ih =>
      rw [Yaml.markedFrom_cons (by simp), Marked.cons] at hends
      intro first hfirst
      cases hbreak : Yaml.isBreak12 char with
      | true =>
          -- no break is a gap, so this is the character that the line is judged by
          have hgap : (char = ' ' || char = '\t') = false := by
            rw [Bool.eq_false_iff]
            intro hgap
            rcases (by simpa using hgap : char = ' ' ∨ char = '\t') with rfl | rfl <;> contradiction
          rw [List.find?_cons_of_pos (by rw [hgap]; rfl)] at hfirst
          exact Option.some.inj hfirst ▸ hbreak
      | false =>
          have hcell : Yaml.cellAt Yaml.isBreak12 mark char = ⟨char, mark, false⟩ := by
            rw [Yaml.cellAt, hbreak]
            rfl
          rw [hbreak, Bool.false_and] at hends
          cases hgap : (char = ' ' || char = '\t') with
          | true =>
              rw [List.find?_cons_of_neg (by rw [hgap]; decide)] at hfirst
              -- a gap leaves the judgement to what is behind it
              have hrest : LineEnds (Yaml.markedFrom Yaml.isBreak12 (fun _ => 1) false
                  (mark.behind Yaml.isBreak12 (fun _ => 1) char) rest).cells := by
                intro cell hfound
                apply hends cell
                rwa [List.find?_cons_of_neg (by rw [hcell]; simp only [hgap]; decide)]
              exact ih hrest first hfirst
          | false =>
              have hend := hends _ (List.find?_cons_of_pos (by rw [hcell]; simp only [hgap]; rfl))
              rw [hcell] at hend
              contradiction

/-- A scalar begins where some cells without a break stand that it begins with. -/
theorem startsAt_of_cells {cell : Cell} {others : List Cell} {scalar : List Char} (count : Nat)
    (hsuffix : cell :: others <:+ cellsOf text)
    (hbreaks : ∀ inner ∈ (cell :: others).take count, inner.isBreak = false)
    (hbegins : ∀ behind, (LineEnds ((cell :: others).drop count) → EndsLine behind) →
      Begins scalar (((cell :: others).take count).map (·.char) ++ behind)) :
    StartsAt text cell.mark scalar := by
  obtain ⟨front, hfront⟩ := hsuffix
  obtain ⟨before, char, after, htext, hmark, hcells⟩ := Yaml.exists_split_of_cells hfront.symm
  rw [hcells] at hbreaks hbegins
  obtain ⟨reached, hdrop⟩ := Yaml.exists_cells_drop hbreaks
  refine ⟨before, char, after, htext, hmark, ?_⟩
  have hchars := hbegins ((char :: after).drop count) fun hends =>
    endsLine_of_cells (hdrop ▸ hends)
  rwa [Yaml.map_char_take hbreaks, List.take_append_drop] at hchars

/-- A scalar begins with its first line, behind the breaks in front of it. -/
theorem startsAt_of_line {mark : Mark} {line behind : List Cell} {breaks rest : List Char}
    (hsuffix : line ++ behind <:+ cellsOf text) (hmark : line.head?.map (·.mark) = some mark)
    (hline : ∀ cell ∈ line, cell.isBreak = false) (hbreaks : ∀ char ∈ breaks, char = '\n')
    (hfold : rest ≠ [] → LineEnds behind) :
    StartsAt text mark (breaks ++ line.map (·.char) ++ rest) := by
  cases line with
  | nil => simp at hmark
  | cons cell line =>
      obtain rfl := Option.some.inj hmark
      rw [List.cons_append] at hsuffix
      have htake : (cell :: (line ++ behind)).take (cell :: line).length = cell :: line :=
        List.take_left
      have hdrop : (cell :: (line ++ behind)).drop (cell :: line).length = behind :=
        List.drop_left
      refine startsAt_of_cells (cell :: line).length hsuffix ?_ fun chars hends => ?_
      · rwa [htake]
      · rw [htake]
        exact .written rfl hbreaks (by simp) fun hrest => hends (by rw [hdrop]; exact hfold hrest)

/-- A word of a plain scalar holds no space. -/
theorem isSpace_of_mem_plainWord (flow : Bool) (ahead : List Cell) :
    ∀ cell ∈ ahead.take (plainWordLength flow ahead), cell.isSpace = false := by
  induction ahead with
  | nil => simp
  | cons cell others ih =>
      unfold plainWordLength
      simp only
      split
      · simp
      · next hspace =>
        split
        · simp
        · split
          · simp
          · rw [List.take_succ_cons]
            exact List.forall_mem_cons.mpr ⟨Bool.eq_false_iff.mpr hspace, ih⟩

/-- Where a token begins: at a cell that is no space. -/
def AtWord (mark : Mark) (ahead : List Cell) : Prop :=
  ∃ cell others, ahead = cell :: others ∧ cell.mark = mark ∧ cell.isSpace = false

/-- What is known while the words of a plain scalar are read that starts with some cells.
On its first line the words, and the blanks behind them, are what has been taken; once that
line is left, the words start with all that stands on it. -/
inductive Taking (start : List Cell) (words : List Char) : Spaces → List Cell → Prop
  | onLine {line gaps ahead : List Cell} (hstart : start = line ++ (gaps ++ ahead))
      (hline : ∀ cell ∈ line ++ gaps, cell.isBreak = false)
      (hgaps : ∀ cell ∈ gaps, (cell.char = ' ' || cell.char = '\t') = true)
      (hwords : words = line.map (·.char)) :
      Taking start words { Spaces.none with gap := gaps.map (·.char) } ahead
  | behind {line behind : List Cell} (hstart : start = line ++ behind)
      (hline : ∀ cell ∈ line, cell.isBreak = false) (hends : LineEnds behind)
      (hwords : line.map (·.char) <+: words) (spaces : Spaces) (ahead : List Cell) :
      Taking start words spaces ahead

namespace Taking

variable {start ahead : List Cell} {words : List Char} {spaces : Spaces} {cell : Cell}

theorem first (start : List Cell) : Taking start [] Spaces.none start :=
  @onLine start [] [] [] start rfl (by simp) (by simp) rfl

/-- A word takes the blanks in front of it. -/
theorem word (htaking : Taking start words spaces ahead) (count : Nat)
    (hword : ∀ cell ∈ ahead.take count, cell.isSpace = false) :
    Taking start (words ++ spaces.meaning ++ (ahead.take count).map (·.char)) Spaces.none
      (ahead.drop count) := by
  cases htaking with
  | @onLine line gaps _ hstart hline hgaps hwords =>
      refine @onLine start _ (line ++ gaps ++ ahead.take count) [] _ ?_ ?_ (by simp) ?_
      · simpa using hstart
      · rw [List.append_nil]
        refine List.forall_mem_append.mpr ⟨hline, fun cell hcell => ?_⟩
        have hspace := hword cell hcell
        simp only [Cell.isSpace, Bool.or_eq_false_iff] at hspace
        exact hspace.1.1
      · simp [hwords, Spaces.meaning, Spaces.none]
  | behind hstart hline hends hwords =>
      rw [List.append_assoc]
      exact .behind hstart hline hends (hwords.trans (List.prefix_append _ _)) _ _

theorem gap {others : List Cell} (htaking : Taking start words spaces (cell :: others))
    (hspace : cell.isSpace = true) (hbreak : cell.isBreak = false) :
    Taking start words (spaces.push cell) others := by
  cases htaking with
  | @onLine line gaps _ hstart hline hgaps hwords =>
      have hpush : Spaces.push { Spaces.none with gap := gaps.map (·.char) } cell =
          { Spaces.none with gap := (gaps ++ [cell]).map (·.char) } := by
        simp [Spaces.push, Spaces.none, hbreak]
      rw [hpush]
      refine .onLine (by simpa using hstart) ?_ ?_ hwords
      · rw [← List.append_assoc]
        exact List.forall_mem_append.mpr ⟨hline, List.forall_mem_singleton.mpr hbreak⟩
      · rw [Cell.isSpace, hbreak, Bool.false_or] at hspace
        exact List.forall_mem_append.mpr ⟨hgaps, List.forall_mem_singleton.mpr hspace⟩
  | behind hstart hline hends hwords => exact .behind hstart hline hends hwords _ _

/-- A break leaves the first line, if it is not left yet. -/
theorem lineBreak {others : List Cell} (htaking : Taking start words spaces (cell :: others))
    (hbreak : cell.isBreak = true) : Taking start words (spaces.push cell) others := by
  cases htaking with
  | @onLine line gaps _ hstart hline hgaps hwords =>
      refine .behind hstart (fun inner hinner => hline inner (List.mem_append_left _ hinner)) ?_
        (hwords ▸ List.prefix_rfl) _ _
      have hnone : (gaps.find? fun cell => cell.isBreak || !(cell.char = ' ' || cell.char = '\t'))
          = none := by
        refine List.find?_eq_none.mpr fun inner hinner => ?_
        rw [hline inner (List.mem_append_right _ hinner), hgaps inner hinner]
        decide
      rw [LineEnds, List.find?_append, hnone]
      exact lineEnds_of_break hbreak _
  | behind hstart hline hends hwords => exact .behind hstart hline hends hwords _ _

/-- Once the first line is left, it does not matter what is ahead. -/
theorem of_broken (htaking : Taking start words spaces ahead) (hbroken : spaces.broken = true)
    (others : List Cell) : Taking start words spaces others := by
  cases htaking with
  | onLine => contradiction
  | behind hstart hline hends hwords => exact .behind hstart hline hends hwords _ _

/-- A plain scalar begins where its words start. -/
theorem startsAt {mark : Mark} (htaking : Taking start words spaces ahead)
    (hsuffix : start <:+ cellsOf text) (hword : AtWord mark start) (hne : words ≠ []) :
    StartsAt text mark words := by
  obtain ⟨first, others, rfl, rfl, hspace⟩ := hword
  have hbreaks : ∀ char ∈ ([] : List Char), char = '\n' := by simp
  cases htaking with
  | @onLine line gaps ahead hstart hline hgaps hwords =>
      cases line with
      | nil => exact absurd hwords hne
      | cons cell line =>
          obtain ⟨rfl, hothers⟩ := List.cons.inj hstart
          subst hwords
          have hunbroken := (List.forall_mem_append.mp hline).1
          have hstarts := startsAt_of_line (hstart ▸ hsuffix) rfl hunbroken hbreaks
            (fun hrest : [] ≠ [] => absurd rfl hrest)
          rwa [List.append_nil] at hstarts
  | @behind line behind hstart hline hends hwords =>
      obtain ⟨rest, rfl⟩ := hwords
      cases line with
      | nil =>
          -- the first line would end in front of the first word
          subst hstart
          simp only [Cell.isSpace, Bool.or_eq_false_iff] at hspace
          have hend := hends first
            (List.find?_cons_of_pos (by rw [hspace.1.2, hspace.2]; simp))
          exact absurd hend (by simp [hspace.1.1])
      | cons cell line =>
          obtain ⟨rfl, hothers⟩ := List.cons.inj hstart
          exact startsAt_of_line (hstart ▸ hsuffix) rfl hline hbreaks fun _ => hends

end Taking

variable {first : List Cell} {words : List Char} {spaces : Spaces} {state : Lexing}

/-- The blanks behind the words are taken. -/
theorem taking_takePlainSpaces (start : Mark) (indent : Int) (remaining : Nat)
    (htaking : Taking first words spaces state.text.cells) :
    Leads (takePlainSpaces start indent remaining spaces) state fun found next =>
      Taking first words found next.text.cells := by
  induction remaining generalizing spaces state with
  | zero => exact .pure htaking
  | succ remaining ih =>
      refine .bind (.get ?_)
      cases hcells : state.text.cells with
      | nil => exact .pure htaking
      | cons cell others =>
          have hdrop : state.text.cells.drop 1 = others := by rw [hcells]; rfl
          rw [hcells] at htaking
          refine .ite (fun _ => .pure (hcells ▸ htaking)) fun hspace => ?_
          refine .ite (fun hbreak => ?_) fun hbreak => .ite (fun htab => ?_) fun _ => ?_
          · exact .bind (.bind (.modify (.modify (ih (hdrop.symm ▸ htaking.lineBreak hbreak)))))
          · -- a comment may be taken here, but not on the first line
            simp only [Bool.and_eq_true] at htab
            refine .bind fun _ next _ => .bind (.bind (.get (.pure ?_)))
            exact .ite (fun _ => .bind (.throw _)) fun _ => ih (htaking.of_broken htab.1.1 _)
          · have hgap := htaking.gap (by simpa using hspace) (Bool.eq_false_iff.mpr hbreak)
            exact .bind (.modify (ih (hdrop.symm ▸ hgap)))

/-- A plain scalar is taken word by word. -/
theorem taking_plainWords (start : Mark) (indent : Int) (remaining : Nat)
    (htaking : Taking first words spaces state.text.cells) :
    Leads (plainWords start indent remaining words spaces) state fun scalar next =>
      ∃ spaces, Taking first scalar spaces next.text.cells := by
  induction remaining generalizing words spaces state with
  | zero => exact .pure ⟨spaces, htaking⟩
  | succ remaining ih =>
      -- what a round does once the word ahead is taken
      have hround : ∀ {words spaces inner} (flow : Bool),
          Taking first words spaces inner.text.cells →
          Leads (do
            if !(← looksAt fun text => text.isGapAt 0 || text.isBreakAt 0) then return words
            let spaces ← takePlainSpaces start indent (← fuel) spaces
            if !flow && decide ((← here).column < indent) then return words
            plainWords start indent remaining words spaces) inner
          fun scalar next => ∃ spaces, Taking first scalar spaces next.text.cells := by
        intro words spaces inner flow htaking
        refine .bind (.bind (.get (.pure ?_)))
        refine .ite (fun _ => .pure ⟨spaces, htaking⟩) fun _ => .bind (.bind (.get (.pure ?_)))
        have hspaces := taking_takePlainSpaces start indent (inner.text.cells.length + 1) htaking
        refine .bind (hspaces.mono fun spaces next htaking => .bind (.bind (.get (.pure ?_))))
        exact .ite (fun _ => .pure ⟨spaces, htaking⟩) fun _ => ih htaking
      refine .bind (.bind (.get (.pure (.bind (.get ?_)))))
      refine .ite (fun _ => .pure ⟨spaces, htaking⟩) fun _ => ?_
      refine .ite (fun _ => .bind (.bind (.bind (.get (.pure (.throw _)))))) fun _ => ?_
      have hword := htaking.word _ (isSpace_of_mem_plainWord (!state.outerCandidates.isEmpty) _)
      refine .ite (fun hsome => ?_) fun hnone => ?_
      · simp only [Bool.not_eq_eq_eq_not, Bool.not_true] at hsome
        simp only [hsome, Bool.false_eq_true, if_false]
        exact .bind (.bind (.modify (.modify (hround _ hword))))
      · simp only [Bool.not_eq_eq_eq_not, Bool.not_true, Bool.not_eq_false] at hnone
        simp only [hnone, if_true]
        exact hround _ htaking

theorem keeps_plainWords (start : Mark) (indent : Int) (remaining : Nat) (words : List Char)
    (spaces : Spaces) : Keeps text (plainWords start indent remaining words spaces) := by
  induction remaining generalizing words spaces with
  | zero =>
      unfold plainWords
      mvcgen
  | succ remaining ih =>
      unfold plainWords
      mvcgen [-failsOnOneLine_plainWords, ih]

/-- A plain scalar begins where its first word is ahead. -/
theorem spec_plainWords (start mark : Mark) (indent : Int) (remaining : Nat) :
    ⦃fun state => ⌜Stands text state.text.cells state.reversed ∧ AtWord mark state.text.cells⌝⦄
    plainWords start indent remaining [] Spaces.none
    ⦃post⟨fun scalar state => ⌜Stands text state.text.cells state.reversed ∧
      (scalar ≠ [] → StartsAt text mark scalar)⌝, fun _ => ⌜True⌝⟩⦄ := by
  refine Reader.triple_of_run fun state ⟨hstands, hword⟩ => ?_
  cases hrun : (plainWords start indent remaining [] Spaces.none).run state with
  | error fault => trivial
  | ok reached =>
      obtain ⟨scalar, next⟩ := reached
      obtain ⟨_, htaking⟩ := taking_plainWords start indent remaining (.first _) scalar next hrun
      exact ⟨Reader.ok_of_triple (keeps_plainWords start indent remaining [] _) hstands hrun,
        htaking.startsAt hstands.suffix hword⟩

/-- A plain scalar begins where it is read. -/
theorem spec_scanPlain (mark : Mark) :
    ⦃fun state => ⌜Stands text state.text.cells state.reversed ∧ AtWord mark state.text.cells⌝⦄
    scanPlain
    ⦃post⟨fun scalar state => ⌜Stands text state.text.cells state.reversed ∧
      StartsAt text mark scalar⌝, fun _ => ⌜True⌝⟩⦄ := by
  unfold scanPlain
  mvcgen [-failsOnOneLine_plainWords, spec_plainWords]
  all_goals
    exact ⟨And.left ‹_ ∧ (_ → StartsAt _ _ _)›, And.right ‹_ ∧ (_ → StartsAt _ _ _)›
      fun hnil => ‹¬List.isEmpty _ = true› (List.isEmpty_iff.mpr hnil)⟩

/-- Whether no space is ahead. -/
def Settled (ahead : List Cell) : Prop :=
  ∀ cell ∈ ahead.head?, cell.isSpace = false

theorem fewer_drop {ahead : List Cell} {tokens : List Token} {bound : Nat} (count : Nat)
    (hboth : Stands text ahead tokens ∧ ahead.length < bound) :
    Stands text (ahead.drop count) tokens ∧ (ahead.drop count).length < bound := by
  refine ⟨hboth.1.drop count, ?_⟩
  rw [List.length_drop]
  exact Nat.lt_of_le_of_lt (Nat.sub_le _ _) hboth.2

theorem shorter_drop {ahead others : List Cell} {cell : Cell} {tokens : List Token}
    {bound count : Nat} (hboth : Stands text ahead tokens ∧ ahead.length < bound + 1)
    (hahead : ahead = cell :: others) (hcount : 0 < count) :
    Stands text (ahead.drop count) tokens ∧ (ahead.drop count).length < bound := by
  refine ⟨hboth.1.drop count, ?_⟩
  have hlength := hboth.2
  rw [List.length_drop]
  rw [hahead, List.length_cons] at hlength ⊢
  omega

theorem shorter_behindGap {ahead : Marked} {tokens : List Token} {bound : Nat}
    (hboth : (Stands text ahead.cells tokens ∧ ahead.cells.length < bound + 1) ∧
      ahead.isGapAt 0 = true) (count : Nat) :
    let behind := ahead.cells.drop
      (ahead.cells.takeWhile fun cell => cell.char = ' ' || cell.char = '\t').length
    Stands text (behind.drop count) tokens ∧ (behind.drop count).length < bound := by
  obtain ⟨hless, hgap⟩ := hboth
  cases hahead : ahead.cells with
  | nil => simp [Marked.isGapAt, Marked.ahead?, hahead] at hgap
  | cons cell others =>
      simp only [Marked.isGapAt, Marked.ahead?, hahead, List.getElem?_cons_zero, Option.map_some,
        Option.some.injEq] at hgap
      rw [hahead] at hless
      intro behind
      rw [List.drop_drop]
      refine shorter_drop hless rfl (Nat.add_pos_left (List.length_pos_iff.mpr ?_) count)
      rw [List.takeWhile_cons, if_pos hgap]
      exact List.cons_ne_nil _ _

/-- Taking a gap and what follows it on its line leaves less of the text. -/
theorem shorter_skipToLineEnd (bound : Nat) :
    ⦃fun state => ⌜(Stands text state.text.cells state.reversed ∧
      state.text.cells.length < bound + 1) ∧ state.text.isGapAt 0 = true⌝⦄
    discard skipToLineEnd
    ⦃post⟨fun _ state => ⌜Stands text state.text.cells state.reversed ∧
      state.text.cells.length < bound⌝, fun _ => ⌜True⌝⟩⦄ := by
  have hdiscard : discard skipToLineEnd = (fun _ => ()) <$> skipToLineEnd := rfl
  rw [hdiscard]
  unfold skipToLineEnd skipLine skip
  mvcgen [-failsOnOneLine_skipToLineEnd, -keeps_skipToLineEnd, -keeps_drop, drop]
  · exact shorter_behindGap ‹(_ ∧ _) ∧ _› _
  · exact shorter_behindGap ‹(_ ∧ _) ∧ _› 0
  · exact shorter_behindGap ‹(_ ∧ _) ∧ _› 0

/-- Behind blanks and comments there is no space. -/
theorem settled_skipToToken (remaining : Nat) :
    ⦃fun state => ⌜Stands text state.text.cells state.reversed ∧
      state.text.cells.length < remaining⌝⦄
    skipToToken remaining
    ⦃post⟨fun _ state => ⌜Stands text state.text.cells state.reversed ∧
      Settled state.text.cells⌝, fun _ => ⌜True⌝⟩⦄ := by
  induction remaining with
  | zero =>
      unfold skipToToken
      mvcgen
      next hboth => exact absurd hboth.2 (Nat.not_lt_zero _)
  | succ remaining ih =>
      unfold skipToToken skipGap skipBreak
      mvcgen [-failsOnOneLine_skipToToken, -keeps_skipToToken, -keeps_drop, drop, ih,
        -failsOnOneLine_discard_skipToLineEnd, -keeps_discard_skipToLineEnd,
        shorter_skipToLineEnd]
      · next hboth _ hnil => exact ⟨hboth.1, by simp [Settled, hnil]⟩
      · -- a tab is a gap, so that what is taken up to the end of the line holds it
        next hboth _ _ _ hahead htab =>
        refine ⟨hboth, ?_⟩
        simp only [Bool.and_eq_true, decide_eq_true_eq] at htab
        simp [Marked.isGapAt, Marked.ahead?, hahead, htab.1]
      · exact shorter_drop ‹_ ∧ _ < _› ‹_ = _ :: _› Nat.one_pos
      · exact shorter_drop ‹_ ∧ _ < _› ‹_ = _ :: _› Nat.one_pos
      · exact shorter_drop ‹_ ∧ _ < _› ‹_ = _ :: _› Nat.one_pos
      · -- a comment takes its first character at least
        next hboth _ _ _ hahead _ _ hbreak _ _ =>
        refine shorter_drop hboth hahead ?_
        rw [hahead, List.takeWhile_cons_of_pos (by simpa using hbreak)]
        exact Nat.succ_pos _
      · -- neither a gap nor a break, so the spaces end here
        next hboth _ cell _ hahead _ hgap hbreak _ =>
        refine ⟨hboth.1, ?_⟩
        intro first hfirst
        rw [hahead] at hfirst
        obtain rfl := Option.some.inj hfirst
        simp only [Bool.or_eq_true, decide_eq_true_eq, not_or] at hgap
        simp [Cell.isSpace, hbreak, hgap]

/-! ## Block scalars -/

@[spec 2000]
theorem keeps_scanChomping : Keeps text scanChomping := by
  unfold scanChomping
  mvcgen

@[spec 2000]
theorem keeps_scanIncrement (start : Mark) : Keeps text (scanIncrement start) := by
  unfold scanIncrement
  mvcgen

@[spec 2000]
theorem keeps_scanBlockHeader (start : Mark) : Keeps text (scanBlockHeader start) := by
  unfold scanBlockHeader
  mvcgen

theorem shorter_behindBreak {ahead : Marked} {tokens : List Token} {bound : Nat}
    (hboth : Stands text ahead.cells tokens ∧ ahead.cells.length < bound + 1)
    (hbreak : ahead.isBreakAt 0 = true) :
    Stands text (ahead.cells.drop 1) tokens ∧ (ahead.cells.drop 1).length < bound := by
  cases hahead : ahead.cells with
  | nil => simp [Marked.isBreakAt, hahead] at hbreak
  | cons cell others => exact shorter_drop (hahead ▸ hboth) rfl Nat.one_pos

/-- Whether a text holds only breaks. -/
def OnlyBreaks (chars : List Char) : Prop :=
  ∀ char ∈ chars, char = '\n'

/-- Behind the empty lines in front of a line no break is ahead. -/
theorem spec_blockBreaks (indent : Option Nat) (remaining reached : Nat) (breaks : List Char)
    (hbreaks : OnlyBreaks breaks) :
    ⦃fun state => ⌜Stands text state.text.cells state.reversed ∧
      state.text.cells.length < remaining⌝⦄
    blockBreaks indent remaining reached breaks
    ⦃post⟨fun found state => ⌜(Stands text state.text.cells state.reversed ∧
      state.text.isBreakAt 0 = false) ∧ OnlyBreaks found.1⌝, fun _ => ⌜True⌝⟩⦄ := by
  induction remaining generalizing reached breaks with
  | zero =>
      unfold blockBreaks
      mvcgen
      next hboth => exact absurd hboth.2 (Nat.not_lt_zero _)
  | succ remaining ih =>
      unfold blockBreaks skipBreak
      mvcgen [-failsOnOneLine_blockBreaks, -keeps_drop, drop, ih]
      · exact List.forall_mem_append.mpr ⟨hbreaks, List.forall_mem_singleton.mpr rfl⟩
      · next hboth _ _ hbreak _ _ => exact shorter_behindBreak (fewer_drop _ hboth) hbreak
      · next hboth _ _ hbreak =>
        exact ⟨⟨hboth.1.drop _, Bool.eq_false_iff.mpr hbreak⟩, hbreaks⟩

@[spec 2000]
theorem keeps_blockBreaks (indent : Option Nat) (remaining reached : Nat) (breaks : List Char) :
    Keeps text (blockBreaks indent remaining reached breaks) := by
  induction remaining generalizing reached breaks with
  | zero =>
      unfold blockBreaks
      mvcgen
  | succ remaining ih =>
      unfold blockBreaks
      mvcgen [-failsOnOneLine_blockBreaks, ih]

/-- What the lines of a block hold already, they hold at their end. -/
theorem spec_blockLines_prefix (literal : Bool) (indent remaining : Nat) (block : BlockText)
    (afterBlank : Bool) :
    ⦃fun state => ⌜Stands text state.text.cells state.reversed⌝⦄
    blockLines literal indent remaining block afterBlank
    ⦃post⟨fun found state => ⌜Stands text state.text.cells state.reversed ∧
      block.text <+: found.text⌝, fun _ => ⌜True⌝⟩⦄ := by
  induction remaining generalizing block afterBlank with
  | zero =>
      unfold blockLines
      mvcgen
  | succ remaining ih =>
      have hlonger : ∀ between line, block.text <+: block.text ++ between ++ line :=
        fun between line => ⟨between ++ line, (List.append_assoc ..).symm⟩
      unfold blockLines
      mvcgen [-failsOnOneLine_blockLines, ih]
      · exact ⟨by assumption, hlonger _ _⟩
      · exact fun hstands hfirst => ⟨hstands, (hlonger _ _).trans hfirst⟩

/-- Where a line begins: at a cell that is no break. -/
def AtLine (mark : Mark) (ahead : List Cell) : Prop :=
  ∃ cell others, ahead = cell :: others ∧ cell.mark = mark ∧ cell.isBreak = false

/-- A block scalar begins with its first line, behind the breaks in front of it. -/
theorem startsAt_of_firstLine {mark : Mark} {ahead : List Cell} {tokens : List Token}
    (hboth : Stands text ahead tokens ∧ AtLine mark ahead) {breaks : List Char}
    (hbreaks : OnlyBreaks breaks) (rest : List Char) :
    StartsAt text mark
      (breaks ++ (ahead.takeWhile fun cell => !cell.isBreak).map (·.char) ++ rest) := by
  obtain ⟨hstands, cell, others, rfl, rfl, hbreak⟩ := hboth
  have hline : ∀ inner ∈ (cell :: others).takeWhile fun cell => !cell.isBreak,
      inner.isBreak = false := fun inner hinner => by
    simpa using List.mem_takeWhile_imp hinner
  have hends : LineEnds ((cell :: others).dropWhile fun cell => !cell.isBreak) := by
    have hnext := List.head?_dropWhile_not (fun cell : Cell => !cell.isBreak) (cell :: others)
    cases hbehind : (cell :: others).dropWhile fun cell => !cell.isBreak with
    | nil => exact fun _ hfound => absurd hfound (Option.not_mem_none _)
    | cons next rest =>
        rw [hbehind] at hnext
        exact lineEnds_of_break (by simpa using hnext) rest
  refine startsAt_of_line ?_ ?_ hline hbreaks fun _ => hends
  · rw [List.takeWhile_append_dropWhile]
    exact hstands.suffix
  · rw [List.takeWhile_cons, if_pos (by simp [hbreak])]
    rfl

/-- A block scalar without a line holds only breaks. -/
theorem spec_blockLines (literal : Bool) (indent remaining : Nat) {breaks : List Char}
    (hbreaks : OnlyBreaks breaks) (mark : Mark) :
    ⦃fun state => ⌜Stands text state.text.cells state.reversed ∧ AtLine mark state.text.cells⌝⦄
    blockLines literal indent remaining { text := [], ending := [], others := breaks } false
    ⦃post⟨fun found state => ⌜Stands text state.text.cells state.reversed ∧
      (found = ⟨[], [], breaks⟩ ∨
        ∀ rest, StartsAt text mark (found.text ++ rest))⌝, fun _ => ⌜True⌝⟩⦄ := by
  cases remaining with
  | zero =>
      unfold blockLines
      mvcgen
      next hboth => exact ⟨hboth.1, .inl trivial⟩
  | succ remaining =>
      unfold blockLines
      mvcgen [-failsOnOneLine_blockLines, spec_blockLines_prefix]
      · next hboth _ _ => exact ⟨hboth.1, .inl trivial⟩
      · -- what the lines start from stands in the text
        next hboth _ _ _ _ _ => exact hboth.1
      · next hboth _ _ _ between line _ shown _ hstands _ =>
        -- the text ends with its first line
        have hshown : shown = breaks ++ line.map (·.char) := by cases literal <;> rfl
        refine ⟨hstands, .inr fun rest => ?_⟩
        rw [hshown]
        exact startsAt_of_firstLine hboth hbreaks rest
      · next hboth _ _ _ between line _ shown _ _ _ _ _ _ _ _ _ _ _ =>
        -- further lines go behind the first one
        have hshown : shown = breaks ++ line.map (·.char) := by cases literal <;> rfl
        rintro hstands ⟨others, hothers⟩
        refine ⟨hstands, .inr fun rest => ?_⟩
        rw [← hothers, hshown, List.append_assoc]
        exact startsAt_of_firstLine hboth hbreaks (others ++ rest)

theorem AtWord.atLine {ahead : Marked} (hword : ∃ mark, AtWord mark ahead.cells) :
    AtLine ahead.here ahead.cells := by
  obtain ⟨mark, cell, others, hahead, -, hspace⟩ := hword
  simp only [Cell.isSpace, Bool.or_eq_false_iff] at hspace
  exact ⟨cell, others, hahead, by rw [Marked.here, hahead]; rfl, hspace.1.1⟩

theorem atLine_of_not_isEndAt {ahead : Marked} (hbreak : ahead.isBreakAt 0 = false)
    (hend : ¬ahead.isEndAt 0 = true) : AtLine ahead.here ahead.cells := by
  cases hahead : ahead.cells with
  | nil => simp [Marked.isEndAt, hahead] at hend
  | cons cell others =>
      refine ⟨cell, others, rfl, by rw [Marked.here, hahead]; rfl, ?_⟩
      simpa [Marked.isBreakAt, hahead] using hbreak

/-- A block scalar that holds only breaks may begin anywhere. -/
theorem startsAt_of_onlyBreaks {mark : Mark} {ahead : List Cell} {tokens : List Token}
    (hstands : Stands text ahead tokens) (hline : AtLine mark ahead) {scalar : List Char}
    (hscalar : OnlyBreaks scalar) : StartsAt text mark scalar := by
  obtain ⟨cell, others, rfl, rfl, -⟩ := hline
  exact startsAt_of_cells 0 hstands.suffix (by simp) fun behind _ => .breaks hscalar _

theorem onlyBreaks_emptyBlock (chomping : Chomping) (headed sameLine : Bool) {breaks : List Char}
    (hbreaks : OnlyBreaks breaks) : OnlyBreaks (emptyBlock chomping headed sameLine breaks) := by
  have hfeed : OnlyBreaks ['\n'] := List.forall_mem_singleton.mpr rfl
  have hnil : OnlyBreaks [] := fun _ hchar => absurd hchar List.not_mem_nil
  unfold emptyBlock
  cases chomping <;> cases headed <;> cases sameLine <;> cases breaks <;> assumption

theorem onlyBreaks_last (isLast : Bool) :
    OnlyBreaks (if isLast = true then ['\n'] else []) := by
  cases isLast
  · exact fun _ hchar => absurd hchar List.not_mem_nil
  · exact List.forall_mem_singleton.mpr rfl

/-- However a block scalar is chomped, it begins where its first line does. -/
theorem startsAt_of_block {ahead : Marked} {tokens : List Token} {breaks : List Char}
    {block : BlockText} {Kept : Prop}
    (hahead : (Stands text ahead.cells tokens ∧ ahead.isBreakAt 0 = false) ∧ OnlyBreaks breaks)
    (hend : ¬ahead.isEndAt 0 = true)
    (hblock : Kept ∧ (block = ⟨[], [], breaks⟩ ∨
      ∀ rest, StartsAt text ahead.here (block.text ++ rest))) (isLast : Bool) :
    let last := if isLast = true then ['\n'] else []
    StartsAt text ahead.here block.text ∧
      StartsAt text ahead.here (block.text ++ block.ending ++ last) ∧
      StartsAt text ahead.here (block.text ++ block.ending ++ last ++ block.others) := by
  intro last
  obtain ⟨⟨hstands, hbreak⟩, hbreaks⟩ := hahead
  rcases hblock.2 with rfl | hlines
  · have hline := atLine_of_not_isEndAt hbreak hend
    have hlast : OnlyBreaks last := onlyBreaks_last isLast
    exact ⟨startsAt_of_onlyBreaks hstands hline fun _ hchar => absurd hchar List.not_mem_nil,
      startsAt_of_onlyBreaks hstands hline hlast,
      startsAt_of_onlyBreaks hstands hline (List.forall_mem_append.mpr ⟨hlast, hbreaks⟩)⟩
  · refine ⟨?_, ?_, ?_⟩
    · exact List.append_nil block.text ▸ hlines []
    · rw [List.append_assoc]
      exact hlines _
    · rw [List.append_assoc, List.append_assoc]
      exact hlines _

/-- A block scalar is put down to its first line, or to its start if it has none. -/
theorem spec_scanBlock (literal : Bool) :
    ⦃fun state => ⌜Stands text state.text.cells state.reversed ∧
      ∃ mark, AtWord mark state.text.cells⌝⦄
    scanBlock literal
    ⦃post⟨fun found state => ⌜Stands text state.text.cells state.reversed ∧
      StartsAt text found.2 found.1⌝, fun _ => ⌜True⌝⟩⦄ := by
  unfold scanBlock
  mvcgen [-failsOnOneLine_blockBreaks, -keeps_blockBreaks, spec_blockBreaks,
    -failsOnOneLine_blockLines, spec_blockLines]
  -- the lines start at the place that is reached in front of them
  all_goals try exact Marked.here (Lexing.text ‹Lexing›)
  -- a break behind the header may be there or not; from then on the goals come in order
  all_goals
    first
    | exact And.left ‹_ ∧ ∃ _, AtWord _ _›
    | exact fun _ hchar => absurd hchar List.not_mem_nil
    | exact And.right ‹(_ ∧ _) ∧ OnlyBreaks _›
    | exact ⟨by assumption, Nat.lt_succ_self _⟩
    | exact ⟨(And.left ‹(_ ∧ _) ∧ OnlyBreaks _›).1,
        startsAt_of_onlyBreaks (And.left ‹_ ∧ ∃ _, AtWord _ _›)
          (AtWord.atLine (And.right ‹_ ∧ ∃ _, AtWord _ _›))
          (onlyBreaks_emptyBlock _ _ _ (And.right ‹(_ ∧ _) ∧ OnlyBreaks _›))⟩
    | exact ⟨(And.left ‹(_ ∧ _) ∧ OnlyBreaks _›).1, atLine_of_not_isEndAt
        (And.left ‹(_ ∧ _) ∧ OnlyBreaks _›).2 ‹¬Marked.isEndAt _ _ = true›⟩
    | exact ⟨And.left ‹_ ∧ (_ ∨ _)›, (startsAt_of_block ‹(_ ∧ _) ∧ OnlyBreaks _›
        ‹¬Marked.isEndAt _ _ = true› ‹_ ∧ (_ ∨ _)› true).1⟩
    | exact ⟨And.left ‹_ ∧ (_ ∨ _)›, (startsAt_of_block ‹(_ ∧ _) ∧ OnlyBreaks _›
        ‹¬Marked.isEndAt _ _ = true› ‹_ ∧ (_ ∨ _)› _).2.1⟩
    | exact ⟨And.left ‹_ ∧ (_ ∨ _)›, (startsAt_of_block ‹(_ ∧ _) ∧ OnlyBreaks _›
        ‹¬Marked.isEndAt _ _ = true› ‹_ ∧ (_ ∨ _)› _).2.2⟩

end RamlCheck.Outline
