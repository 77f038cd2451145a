import RamlCheck.Proofs.Include.Quoting
import RamlCheck.Proofs.Include.Spot

/-!
# Where nothing is taken

Quoted scalars, block scalars and comments are copied, whatever they hold.  The scan
leaves a quoted scalar right behind its closing quote, lines below
(`Reaches.behindQuotes`), and a block scalar in front of the first line that is neither
blank nor indented more than its header (`Reaches.copiesBlock`, `Reaches.behindBlock`).
Outside of quoted scalars a `#` at the start of a line or behind a gap ends what is taken
of that line (`comment_copied`).  `opaque_regions` puts these together.

## Strategy

The `#` of a comment is looked for from the end of the scan backwards: a move goes on in
front of it, or has passed it before, or copies the rest of its line
(`comment_of_copied`), or is inside a quoted scalar.  The latter is known of a scalar
that an earlier line opened because `Spot.Opened` keeps the spot where that was.
-/

namespace RamlCheck.Include

variable {text : String} {taken pieces : List Piece} {spot next : Spot} {stance : Stance}
  {front rest ending inside after before passed : List Char} {lines : List (List Char)}
  {quote char : Char} {depth : Nat}

/-! ## Behind the content of a line -/

/-- What can stand behind the content of a line, with lines behind it. -/
structure EndsLine (ending : List Char) (lines : List (List Char)) : Prop where
  chars : ∀ char ∈ ending, Text.isLineEnding char = true
  feed : lines ≠ [] → ending.getLast? = some '\n'

theorem EndsLine.ne_nil (hends : EndsLine ending lines) (hlines : lines ≠ []) : ending ≠ [] := by
  rintro rfl
  simpa using hends.feed hlines

theorem ne_nil_of_flatten (hlines : lines.flatten ≠ []) : lines ≠ [] :=
  fun hnil => hlines (by simp [hnil])

/-- No content follows at once. -/
theorem EndsLine.head?_ne (hends : EndsLine ending lines)
    (hchar : Text.isLineEnding char = false) : (ending ++ lines.flatten).head? ≠ some char := by
  cases hending : ending with
  | nil =>
      by_cases hlines : lines.flatten = []
      · simp [hlines]
      · exact absurd hending (hends.ne_nil (ne_nil_of_flatten hlines))
  | cons first others =>
      intro hhead
      have hfirst : first = char := by simpa using hhead
      have htrue := hends.chars first (by simp [hending])
      rw [hfirst, hchar] at htrue
      contradiction

/-- A quoted scalar that the content of a line leaves open is closed where the text behind
the line closes it. -/
theorem EndsLine.closeQuote_eq {content more : List Char} (hends : EndsLine ending lines)
    (hquote : quote = '\'' ∨ quote = '"') (hopen : closeQuote quote false content = none)
    (hmore : more ≠ [] → lines ≠ []) :
    closeQuote quote false (content ++ (ending ++ more)) =
      (closeQuote quote false more).map fun closed =>
        (content ++ (ending ++ closed.1), closed.2) :=
  closeQuote_line hquote hends.chars (fun hne => hends.ne_nil (hmore hne)) hopen

/-- The line in which the scan stands has no line feed but at its end. -/
theorem Spot.Placed.endsLine
    (hplaced : (Spot.inside front rest ending stance lines).Placed passed) :
    '\n' ∉ front ++ rest ∧ EndsLine ending lines := by
  obtain ⟨-, -, hsplit, hcut⟩ := hplaced
  obtain ⟨-, hfeed, hlast, -⟩ := hcut
  obtain ⟨-, -, hchars⟩ := Text.splitEnding_spec (front ++ rest ++ ending)
  have hclean := Text.not_mem_content_of_cut hfeed
  rw [hsplit] at hchars hclean
  refine ⟨hclean, hchars, fun hlines => ?_⟩
  have hend := hlast hlines
  cases ending with
  | nil =>
      rw [List.append_nil] at hend
      exact absurd (List.mem_of_mem_getLast? hend) hclean
  | cons first others => rwa [List.getLast?_append_of_ne_nil _ (List.cons_ne_nil _ _)] at hend

/-- The same of a line that the scan comes to next. -/
theorem Spot.Placed.splitEnding {state : State} {line : List Char}
    (hplaced : (Spot.between state (line :: lines)).Placed passed) :
    '\n' ∉ (Text.splitEnding line).1 ∧ EndsLine (Text.splitEnding line).2 lines :=
  (Spot.placed_enter hplaced.2 passed state.depth).endsLine

/-! ## Quoted scalars -/

/-- A quoted scalar that is open between two lines is copied up to its closing quote, and
the walk goes on right behind it. -/
theorem Reaches.closes
    (hreach : Reaches text taken (.between { carry := .quoted quote, depth } lines))
    (hclose : closeQuote quote false lines.flatten = some (inside, after)) :
    ∃ front rest ending later,
      Reaches text (taken ++ inside.map .copied)
          (.inside front rest ending (Stance.fresh depth).behind later) ∧
        rest ++ ending ++ later.flatten = after := by
  induction lines generalizing taken inside with
  | nil => simp [closeQuote] at hclose
  | cons line lines ih =>
      have hquote := hreach.placed.1
      obtain ⟨-, hends⟩ := hreach.placed.splitEnding
      have hparts := (Text.splitEnding_spec line).1
      rw [List.flatten_cons, ← hparts, List.append_assoc] at hclose
      cases hline : closeQuote quote false (Text.splitEnding line).1 with
      | none =>
          -- a line of the scalar is passed as a whole
          rw [hends.closeQuote_eq hquote hline ne_nil_of_flatten] at hclose
          obtain ⟨⟨inner, behind⟩, hrest, heq⟩ := Option.map_eq_some_iff.mp hclose
          obtain ⟨rfl, rfl⟩ := Prod.mk.inj heq
          obtain ⟨front, rest, ending, later, hnext, hahead⟩ :=
            ih (hreach.move (.passQuotes hline)) hrest
          refine ⟨front, rest, ending, later, ?_, hahead⟩
          rw [← List.append_assoc, hparts, List.map_append, ← List.append_assoc]
          exact hnext
      | some closed =>
          obtain ⟨inner, behind⟩ := closed
          rw [closeQuote_append hline fun _ => hends.head?_ne (by decide)] at hclose
          obtain ⟨rfl, rfl⟩ := Prod.mk.inj (Option.some.inj hclose)
          exact ⟨_, _, _, _, hreach.move (.leaveQuotes hline), List.append_assoc ..⟩

/-- A quoted scalar where a node may start is copied up to its closing quote, and the walk
goes on right behind it, not at the start of a node and with as many flow collections
open. -/
theorem Reaches.behindQuotes
    (hreach : Reaches text taken (.inside front (quote :: rest) ending stance lines))
    (hstart : stance.nodeStart = true) (hquote : quote = '\'' ∨ quote = '"')
    (hclose : closeQuote quote false (rest ++ (ending ++ lines.flatten)) = some (inside, after)) :
    ∃ front' rest' ending' later,
      Reaches text (taken ++ (quote :: inside).map .copied)
          (.inside front' rest' ending' stance.behind later) ∧
        rest' ++ ending' ++ later.flatten = after := by
  obtain ⟨-, hends⟩ := hreach.placed.endsLine
  cases hline : closeQuote quote false rest with
  | none =>
      -- the quote stays open at the end of its line
      have hstep : step (leadingSpaces (front ++ quote :: rest)) stance quote rest =
          .stop (.quoted quote) := (Advance.openQuote hstart hquote hline).step_eq
      rw [hends.closeQuote_eq hquote hline ne_nil_of_flatten] at hclose
      obtain ⟨⟨inner, behind⟩, hrest, heq⟩ := Option.map_eq_some_iff.mp hclose
      obtain ⟨rfl, rfl⟩ := Prod.mk.inj heq
      obtain ⟨front', rest', ending', later, hnext, hahead⟩ :=
        (hreach.move (.stop hstep)).closes hrest
      refine ⟨front', rest', ending', later, ?_, hahead⟩
      rw [← List.append_assoc, ← List.cons_append, ← List.cons_append, List.map_append,
        ← List.append_assoc]
      exact hnext
  | some closed =>
      -- it is closed in its line
      obtain ⟨inner, behind⟩ := closed
      have hstep : step (leadingSpaces (front ++ quote :: rest)) stance quote rest =
          .take ((quote :: inner).map .copied) stance.behind behind :=
        (Advance.quoted hstart hquote hline).step_eq
      rw [closeQuote_append hline fun _ => hends.head?_ne (by decide)] at hclose
      obtain ⟨rfl, rfl⟩ := Prod.mk.inj (Option.some.inj hclose)
      exact ⟨_, _, _, _, hreach.move (.take hstep), List.append_assoc ..⟩

/-! ## Block scalars -/

/-- The lines of a block scalar that is open between two lines are copied. -/
theorem Reaches.copiesLines {header : Nat} {inner later : List (List Char)}
    (hreach : Reaches text taken
      (.between { carry := .block header, depth } (inner ++ later)))
    (hinner : ∀ line ∈ inner, inBlock header (Text.splitEnding line).1 = true) :
    Reaches text (taken ++ inner.flatten.map .copied)
      (.between { carry := .block header, depth } later) := by
  induction inner generalizing taken with
  | nil => simpa using hreach
  | cons line inner ih =>
      obtain ⟨hline, hothers⟩ := List.forall_mem_cons.mp hinner
      have hnext := ih (hreach.move (.passBlock hline)) hothers
      rw [List.flatten_cons, List.map_append, ← List.append_assoc]
      exact hnext

/-- The header of a block scalar is copied to the end of its line, and so are the lines
below that are blank or indented more than that line. -/
theorem Reaches.copiesBlock {header : List Char} {inner later : List (List Char)}
    (hreach : Reaches text taken
      (.inside front (char :: header) ending stance (inner ++ later)))
    (hstart : stance.nodeStart = true) (hblock : char = '|' ∨ char = '>')
    (hheader : isBlockHeader header = true)
    (hinner : ∀ line ∈ inner,
      inBlock (leadingSpaces (front ++ char :: header)) (Text.splitEnding line).1 = true) :
    Reaches text (taken ++ (char :: header ++ ending ++ inner.flatten).map .copied)
      (.between
        { carry := .block (leadingSpaces (front ++ char :: header)), depth := stance.depth }
        later) := by
  have hstep : step (leadingSpaces (front ++ char :: header)) stance char header =
      .stop (.block (leadingSpaces (front ++ char :: header))) :=
    (Advance.block hstart hblock hheader).step_eq
  have hnext := (hreach.move (.stop hstep)).copiesLines hinner
  rwa [List.append_assoc taken, ← List.map_append] at hnext

/-- In front of the first line that does not belong to a block scalar, the scan is where
it is in front of any line. -/
theorem Reaches.behindBlock {header : Nat} {line : List Char}
    (hreach : Reaches text taken (.between { carry := .block header, depth } (line :: lines)))
    (hline : inBlock header (Text.splitEnding line).1 = false) :
    Reaches text taken (.enter depth line lines) := by
  simpa using hreach.move (.leaveBlock hline)

/-! ## Comments -/

/-- Text that ends inside a quoted scalar, as the scan of a text opens it. -/
def InQuotes (text : String) (before : List Char) : Prop :=
  ∃ taken front rest ending stance lines quote inner,
    Reaches text taken (.inside front (quote :: rest) ending stance lines) ∧
      stance.nodeStart = true ∧ (quote = '\'' ∨ quote = '"') ∧
      before = sourceOf taken ++ quote :: inner ∧ closeQuote quote false inner = none

/-- A quoted scalar that is open in front of some lines was opened before, and is still
open as long as the lines do not close it. -/
def Spot.Opened (text : String) (passed : List Char) : Spot → Prop
  | .between { carry := .quoted quote, depth := _ } lines =>
      ∀ more, (more ≠ [] → lines ≠ []) → closeQuote quote false more = none →
        InQuotes text (passed ++ more)
  | _ => True

theorem Reaches.opened (hreach : Reaches text taken spot) : spot.Opened text (sourceOf taken) := by
  induction hreach with
  | start => trivial
  | @move taken pieces spot next hreach hmove ih =>
      cases hmove with
      | @passQuotes quote depth line lines hclose =>
          -- what is behind this line closes the scalar if the line and it do
          intro more hmore hopen
          obtain ⟨-, hends⟩ := hreach.placed.splitEnding
          rw [sourceOf_append, sourceOf_copied, List.append_assoc]
          refine ih _ (by simp) ?_
          rw [← (Text.splitEnding_spec line).1, List.append_assoc,
            hends.closeQuote_eq hreach.placed.1 hclose hmore, hopen]
          rfl
      | @stop front rest ending quote stance carry lines hstep =>
          obtain ⟨-, hends⟩ := hreach.placed.endsLine
          cases advance_of_step hstep with
          | openQuote hstart hquote hclose =>
              -- here it is opened; the rest of the line is the first of what is inside
              intro more hmore hopen
              refine ⟨_, _, _, _, _, _, _, rest ++ (ending ++ more), hreach, hstart, hquote, ?_, ?_⟩
              · simp [sourceOf_append, -List.map_append, -List.map_cons]
              · rw [hends.closeQuote_eq hquote hclose hmore, hopen]
                rfl
          | comment => trivial
          | block => trivial
      | enter => trivial
      | leaveBlock => trivial
      | passBlock => trivial
      | leaveQuotes => trivial
      | take => trivial
      | leave => trivial

/-- Behind some text the rest of its line is copied. -/
def LineCopied (text : String) (before after : List Char) : Prop :=
  ∃ front behind, piecesOf text = front ++ (Text.firstLine after).map .copied ++ behind ∧
    sourceOf front = before

/-- Where a line is copied to its end, so is a comment in it. -/
theorem comment_of_copied {chars gone others : List Char}
    (hreach : Reaches text (taken ++ chars.map .copied) next)
    (hend : next.ahead ≠ [] → chars.getLast? = some '\n')
    (hchars : chars = gone ++ char :: others) :
    LineCopied text (sourceOf taken ++ gone) (char :: others ++ next.ahead) := by
  have hfirst :
      Text.firstLine (char :: others ++ next.ahead) = Text.firstLine (char :: others) := by
    by_cases hahead : next.ahead = []
    · rw [hahead, List.append_nil]
    · have hlast := hend hahead
      rw [hchars, List.getLast?_append_of_ne_nil _ (List.cons_ne_nil _ _)] at hlast
      rw [Text.firstLine, List.takeWhile_append, if_neg]
      · rfl
      · intro hlength
        have hself := (List.takeWhile_prefix _).eq_of_length hlength
        have hmem := List.mem_of_mem_getLast? hlast
        rw [← hself] at hmem
        simpa using List.all_eq_true.mp List.all_takeWhile _ hmem
  have hrest : List.map Piece.copied (char :: others) =
      (Text.firstLine (char :: others)).map .copied ++
        ((char :: others).dropWhile (· ≠ '\n')).map .copied := by
    rw [← List.map_append, Text.firstLine, List.takeWhile_append_dropWhile]
  refine ⟨taken ++ gone.map .copied,
    ((char :: others).dropWhile (· ≠ '\n')).map .copied ++ next.pieces, ?_, ?_⟩
  · rw [hreach.pieces_eq, hchars, List.map_append, hrest, hfirst]
    simp only [List.append_assoc]
  · rw [sourceOf_append, sourceOf_copied]

theorem isGap_of_inWord {char : Char} (hchar : inWord char = true) : isGap char = false := by
  cases hgap : isGap char with
  | false => rfl
  | true => rw [inWord_of_isGap hgap] at hchar; contradiction

/-- Inside an anchor, an alias or a tag there is a character in front of each `#`, and it is
no gap. -/
theorem last_of_word (indicator : Char) (hgap : isGap indicator = false) (hhash : indicator ≠ '#')
    {gone others : List Char}
    (hword : indicator :: rest.takeWhile inWord = gone ++ '#' :: others) :
    ∃ last ∈ gone.getLast?, isGap last = false := by
  have hchars : ∀ char ∈ indicator :: rest.takeWhile inWord, isGap char = false :=
    List.forall_mem_cons.mpr ⟨hgap, fun char hchar =>
      isGap_of_inWord (List.all_eq_true.mp List.all_takeWhile char hchar)⟩
  rw [hword] at hchars
  cases hlast : gone.getLast? with
  | none =>
      rw [List.getLast?_eq_none_iff.mp hlast] at hword
      exact absurd (List.cons.inj hword).1 hhash
  | some last =>
      exact ⟨last, rfl, hchars last (List.mem_append_left _ (List.mem_of_mem_getLast? hlast))⟩

/-- No target holds a `#`. -/
theorem ReferenceAt.hash_not_mem {gap target : List Char}
    (hreference : ReferenceAt gap target after) :
    '#' ∉ includeTag ++ gap ++ target := by
  rw [List.mem_append, List.mem_append]
  rintro ((hmem | hmem) | hmem)
  · exact absurd hmem (by decide)
  · exact absurd (hreference.gap_isGap '#' hmem) (by decide)
  · exact absurd (hreference.target_inTarget '#' hmem) (by decide)

/-- A step that goes on with a `#` inside passes it in a quoted scalar, or begins with it
where no gap is in front, or passes some other character right in front of it. -/
theorem Advance.hash_cases {indent : Nat} {next : Stance} {gone others : List Char}
    (hstep : Advance indent stance char rest (.take pieces next after))
    (hsource : sourceOf pieces = gone ++ '#' :: others) :
    (∃ inner, gone = char :: inner ∧ stance.nodeStart = true ∧ (char = '\'' ∨ char = '"') ∧
      closeQuote char false inner = none) ∨
    (gone = [] ∧ stance.afterGap = false) ∨ ∃ last ∈ gone.getLast?, isGap last = false := by
  -- a copied character is a `#` only if it is the first one
  have hsingle : ∀ first : Char, [first] = gone ++ '#' :: others → gone = [] ∧ first = '#' := by
    intro first hfirst
    cases gone with
    | nil => exact ⟨rfl, (List.cons.inj hfirst).1⟩
    | cons => simp at hfirst
  cases hstep with
  | gap hgap =>
      obtain ⟨-, rfl⟩ := hsingle char hsource
      contradiction
  | dash => exact absurd (hsingle _ hsource).2 (by decide)
  | bracket hstart hbracket =>
      obtain ⟨-, rfl⟩ := hsingle char hsource
      simp at hbracket
  | quoted hstart hquote hclose =>
      rw [sourceOf_copied] at hsource
      cases gone with
      | nil =>
          obtain ⟨rfl, -⟩ := List.cons.inj hsource
          simp at hquote
      | cons first inner =>
          obtain ⟨rfl, rfl⟩ := List.cons.inj hsource
          exact .inl ⟨inner, rfl, hstart, hquote, closeQuote_eq_none_of_inside (by decide) hclose⟩
  | anchor =>
      rw [sourceOf_cons, sourceOf_nil, List.append_nil] at hsource
      exact .inr (.inr (last_of_word '&' (by decide) (by decide) hsource))
  | aliased =>
      rw [sourceOf_cons, sourceOf_nil, List.append_nil] at hsource
      exact .inr (.inr (last_of_word '*' (by decide) (by decide) hsource))
  | tag =>
      rw [sourceOf_cons, sourceOf_nil, List.append_nil] at hsource
      exact .inr (.inr (last_of_word '!' (by decide) (by decide) hsource))
  | reference hstart htext hreference =>
      -- a reference holds no `#`: a target ends in front of one
      have hmem : '#' ∈ sourceOf [Piece.reference _ _] :=
        hsource ▸ List.mem_append_right _ List.mem_cons_self
      rw [sourceOf_cons, sourceOf_nil, List.append_nil] at hmem
      exact absurd hmem hreference.hash_not_mem
  | plain hgap hcomment =>
      obtain ⟨rfl, rfl⟩ := hsingle char hsource
      exact .inr (.inl ⟨rfl, hcomment rfl⟩)

/-- A step that goes on passes no `#` at the start of a line or behind a gap, unless in a
quoted scalar. -/
theorem Reaches.inQuotes_of_take {next : Stance} {gone others : List Char}
    (hreach : Reaches text taken (.inside front (char :: rest) ending stance lines))
    (hstep : step (leadingSpaces (front ++ char :: rest)) stance char rest =
      .take pieces next after)
    (hsource : sourceOf pieces = gone ++ '#' :: others)
    (hgap : ∀ last ∈ (sourceOf taken ++ gone).getLast?, last = '\n' ∨ isGap last = true) :
    InQuotes text (sourceOf taken ++ gone) := by
  obtain ⟨hclean, -⟩ := hreach.placed.endsLine
  obtain ⟨hat, ⟨before, hfront⟩, -⟩ := hreach.placed
  -- a character of this line in front of the `#` would have to be a gap
  have hnone : ∀ last ∈ (sourceOf taken ++ gone).getLast?, last ∈ front ++ char :: rest →
      isGap last = false → False := by
    intro last hlast hmem hnot
    rcases hgap last hlast with rfl | htrue
    · exact hclean hmem
    · rw [hnot] at htrue
      contradiction
  rcases (advance_of_step hstep).hash_cases hsource with
    ⟨inner, rfl, hstart, hquote, hopen⟩ | ⟨rfl, hafter⟩ | ⟨last, hlast, hnot⟩
  · exact ⟨_, _, _, _, _, _, _, _, hreach, hstart, hquote, rfl, hopen⟩
  · -- the character in front of the step is no gap
    rw [ByteWalk.AtGap, hafter] at hat
    cases hlast : front.getLast? with
    | none => simp [hlast] at hat
    | some last =>
        refine (hnone last ?_ ?_ ?_).elim
        · rw [List.append_nil, ← hfront, Option.mem_def, List.getLast?_append, hlast]
          rfl
        · exact List.mem_append_left _ (List.mem_of_mem_getLast? hlast)
        · simpa [hlast] using hat.symm
  · -- the step itself has passed a character that is no gap
    refine (hnone last ?_ ?_ hnot).elim
    · rw [Option.mem_def, List.getLast?_append, hlast]
      rfl
    · have hmem : last ∈ sourceOf pieces :=
        hsource ▸ List.mem_append_left _ (List.mem_of_mem_getLast? hlast)
      rw [← sourceOf_of_step hstep]
      exact List.mem_append_right _ (List.mem_append_left _ hmem)

/-- A move that passes a `#` at the start of a line or behind a gap, but not in a quoted
scalar, copies the rest of its line. -/
theorem Reaches.comment_of_move (hreach : Reaches text taken spot) (hmove : Move spot pieces next)
    {gone others : List Char} (hsource : sourceOf pieces = gone ++ '#' :: others)
    (hgap : ∀ last ∈ (sourceOf taken ++ gone).getLast?, last = '\n' ∨ isGap last = true)
    (hquotes : ¬InQuotes text (sourceOf taken ++ gone)) :
    LineCopied text (sourceOf taken ++ gone) ('#' :: others ++ next.ahead) := by
  have hnext := hreach.move hmove
  cases hmove with
  | enter => simp at hsource
  | leaveBlock => simp at hsource
  | passBlock =>
      rw [sourceOf_copied] at hsource
      exact comment_of_copied hnext
        (fun hahead => hreach.placed.2.2.2.1 (ne_nil_of_flatten hahead)) hsource
  | passQuotes =>
      rw [sourceOf_copied] at hsource
      exact comment_of_copied hnext
        (fun hahead => hreach.placed.2.2.2.1 (ne_nil_of_flatten hahead)) hsource
  | leaveQuotes hclose =>
      rw [sourceOf_copied] at hsource
      -- inside of the scalar the `#` is quoted
      rw [hsource] at hclose
      exact absurd (hreach.opened gone (by simp) (closeQuote_eq_none_of_inside (by decide) hclose))
        hquotes
  | take hstep => exact absurd (hreach.inQuotes_of_take hstep hsource hgap) hquotes
  | stop hstep =>
      rw [sourceOf_copied] at hsource
      obtain ⟨-, hends⟩ := hreach.placed.endsLine
      refine comment_of_copied hnext (fun hahead => ?_) hsource
      have hfeed := hends.feed (ne_nil_of_flatten hahead)
      rw [List.getLast?_append, hfeed]
      rfl
  | leave =>
      rw [sourceOf_copied] at hsource
      obtain ⟨-, hends⟩ := hreach.placed.endsLine
      exact comment_of_copied hnext (fun hahead => hends.feed (ne_nil_of_flatten hahead)) hsource

/-- A `#` at the start of a line or behind a gap ends what is taken of its line, unless it
stands in a quoted scalar. -/
theorem comment_copied (htext : text.toList = before ++ '#' :: after)
    (hgap : ∀ last ∈ before.getLast?, last = '\n' ∨ isGap last = true)
    (hquotes : ¬InQuotes text before) : LineCopied text before ('#' :: after) := by
  have hstart : Reaches text [] (.start text) := .start
  refine hstart.backwards (motive := fun taken _ =>
    ∀ gone, before = sourceOf taken ++ gone → LineCopied text before ('#' :: after))
    ?_ ?_ before rfl
  · intro taken state hreach gone hbefore
    have hlength := congrArg List.length (hreach.source_eq.trans htext)
    simp [hbefore, Spot.ahead] at hlength
  · intro taken spot pieces next hreach hmove ih gone hbefore
    have hsource := (hreach.move hmove).source_eq
    rw [htext, hbefore, sourceOf_append, List.append_assoc, List.append_assoc,
      List.append_cancel_left_eq] at hsource
    rcases List.append_eq_append_iff.mp hsource with ⟨behind, hgone, -⟩ | ⟨others, hpieces, hahead⟩
    · -- the move comes to an end in front of the `#`
      exact ih behind (by rw [hbefore, hgone, sourceOf_append, List.append_assoc])
    · cases others with
      | nil =>
          rw [List.append_nil] at hpieces
          exact ih [] (by rw [hbefore, sourceOf_append, hpieces, List.append_nil])
      | cons first others =>
          -- the move passes the `#`
          obtain ⟨rfl, rfl⟩ := List.cons.inj hahead
          subst hbefore
          exact hreach.comment_of_move hmove hpieces hgap hquotes

/-! ## What is opaque -/

/-- A text in quotes, with what may follow it. -/
inductive QuotedForm (after : List Char) : List Char → Prop
  | single (scalar : List Char) (hafter : after.head? ≠ some '\'') :
      QuotedForm after (singleQuoted scalar)
  | double (scalar : List Char) : QuotedForm after (doubleQuoted scalar)

theorem QuotedForm.closes {form : List Char} (hform : QuotedForm after form) :
    ∃ quote inside, (quote = '\'' ∨ quote = '"') ∧ form = quote :: inside ∧
      closeQuote quote false (inside ++ after) = some (inside, after) := by
  cases hform with
  | single scalar hafter =>
      obtain ⟨inside, hform, hclose⟩ := closeQuote_singleQuoted scalar hafter
      exact ⟨'\'', inside, .inl rfl, hform, hclose⟩
  | double scalar =>
      obtain ⟨inside, hform, hclose⟩ := closeQuote_doubleQuoted scalar after
      exact ⟨'"', inside, .inr rfl, hform, hclose⟩

/-- What the scan of a text leaves alone. -/
structure OpaqueRegions (text : String) : Prop where
  /-- The spots that the scan comes to divide the text and its pieces, and with these the
  rewritten texts. -/
  divides : ∀ taken spot, Reaches text taken spot →
    sourceOf taken ++ spot.ahead = text.toList ∧ piecesOf text = taken ++ spot.pieces ∧
      ∀ properties, (shownText properties text).toList =
        taken.flatMap (shownFor properties) ++ spot.pieces.flatMap (shownFor properties)
  /-- Each spot in a line knows that line and the lines behind it. -/
  placed : ∀ taken spot, Reaches text taken spot → spot.Placed (sourceOf taken)
  /-- The scan comes to the end of the text. -/
  finishes : ∃ state, Reaches text (piecesOf text) (.between state [])
  /-- A text in quotes where a node may start is copied, and the walk goes on right behind
  it, not at the start of a node and with as many flow collections open. -/
  quoted : ∀ taken front rest ending stance lines form after,
    Reaches text taken (.inside front rest ending stance lines) → stance.nodeStart = true →
    QuotedForm after form → rest ++ ending ++ lines.flatten = form ++ after →
      ∃ front' rest' ending' later,
        Reaches text (taken ++ form.map .copied)
            (.inside front' rest' ending' stance.behind later) ∧
          rest' ++ ending' ++ later.flatten = after
  /-- The header of a block scalar is copied with the lines below it that are blank or
  indented more than its line.  At the first other line the scan starts anew. -/
  block : ∀ taken front char header ending stance inner later,
    Reaches text taken (.inside front (char :: header) ending stance (inner ++ later)) →
    stance.nodeStart = true → char = '|' ∨ char = '>' → isBlockHeader header = true →
    (∀ line ∈ inner,
      inBlock (leadingSpaces (front ++ char :: header)) (Text.splitEnding line).1 = true) →
      Reaches text (taken ++ (char :: header ++ ending ++ inner.flatten).map .copied)
          (.between
            { carry := .block (leadingSpaces (front ++ char :: header)), depth := stance.depth }
            later) ∧
        ∀ line lines, later = line :: lines →
          inBlock (leadingSpaces (front ++ char :: header)) (Text.splitEnding line).1 = false →
          Reaches text (taken ++ (char :: header ++ ending ++ inner.flatten).map .copied)
            (.enter stance.depth line lines)
  /-- Behind a `#` at the start of a line or behind a gap the line is copied, unless that
  `#` stands in a quoted scalar. -/
  comment : ∀ before after, text.toList = before ++ '#' :: after →
    (∀ last ∈ before.getLast?, last = '\n' ∨ isGap last = true) → ¬InQuotes text before →
      LineCopied text before ('#' :: after)

/-- Quoted scalars, block scalars and comments are opaque in every text. -/
theorem opaque_regions (text : String) : OpaqueRegions text where
  divides taken spot hreach := by
    refine ⟨hreach.source_eq, hreach.pieces_eq, fun properties => ?_⟩
    rw [toList_shownText, hreach.pieces_eq, List.flatMap_append]
  placed taken spot hreach := hreach.placed
  finishes := reaches_finish text
  quoted taken front rest ending stance lines form after hreach hstart hform hahead := by
    obtain ⟨quote, inside, hquote, rfl, hclose⟩ := hform.closes
    cases rest with
    | nil =>
        -- the line does not end in front of the quote
        obtain ⟨-, hends⟩ := hreach.placed.endsLine
        have hchar : Text.isLineEnding quote = false := by rcases hquote with rfl | rfl <;> decide
        exact absurd (congrArg List.head? hahead) (hends.head?_ne hchar)
    | cons first rest =>
        rw [List.append_assoc] at hahead
        obtain ⟨rfl, hrest⟩ := List.cons.inj hahead
        refine hreach.behindQuotes hstart hquote ?_
        rw [← hclose]
        exact congrArg (closeQuote first false) hrest
  block taken front char header ending stance inner later hreach hstart hblock hheader hinner := by
    have hcopied := hreach.copiesBlock hstart hblock hheader hinner
    refine ⟨hcopied, ?_⟩
    rintro line lines rfl hline
    exact hcopied.behindBlock hline
  comment before after htext hgap hquotes := comment_copied htext hgap hquotes

/-- A scalar in quotes over two lines, with what looks like a comment, a reference and an
anchor inside, is copied, and the walk goes on behind it. -/
theorem quotes_over_lines :
    ∃ front rest ending later,
      Reaches "'b # !include c\n &d' # *e\n"
          ((singleQuoted "b # !include c\n &d".toList).map .copied)
          (.inside front rest ending (Stance.fresh 0).behind later) ∧
        rest ++ ending ++ later.flatten = " # *e\n".toList := by
  have hreach : Reaches "'b # !include c\n &d' # *e\n" ([] ++ [])
      (.enter 0 "'b # !include c\n".toList [" &d' # *e\n".toList]) := .move .start .enter
  exact (opaque_regions _).quoted _ _ _ _ _ _ _ _ hreach rfl (.single _ (by decide)) (by decide)

example : positionsText "a: 'b # !include c\n &d' # *e\nf: |  # *g\n  !include h\n\nf: *i\n" =
    "a: 'b # !include c\n &d' # *e\nf: |  # *g\n  !include h\n\nf: '*i'\n" := by
  decide +kernel

end RamlCheck.Include
