import RamlCheck.Document.Entry
import RamlCheck.Proofs.Include.BlockSibling

/-!
# Where lines begin in the text for positions

In the text that is read for positions an anchor or a tag is as many spaces as it has
characters, so that nothing behind it moves.  At the start of a line spaces are more than
that: they say to which collection the line belongs.  A line that begins with an anchor or a
tag is indented more than in the source, and every other line is indented as it was
(`indented_of_line`).  So two entries of a mapping that begin in one column do so no longer
if one of them, and only one, begins with an anchor or a tag.

A document may have such a key: `Document.sibling_parted` is refused for it.

## Strategy

Up to the first piece that shows something else than spaces, the text for positions is as
wide as the source (`leadingSpaces_forPositions`).  Where that piece is not an anchor or a
tag, only spaces of the source are in front of it.  Which piece is the first one behind the
spaces of a line is settled by what the lines before left open and by the character there
(`propertyAhead_scanLine`).
-/

namespace RamlCheck.Include

variable {state : State} {line content rest inside : List Char} {pieces others : List Piece}
  {piece : Piece} {char : Char} {indent depth : Nat}

/-- Whether a piece is an anchor or a tag. -/
def Piece.isProperty : Piece → Bool
  | .anchor _ | .tag _ => true
  | .copied _ | .reference _ _ | .aliased _ => false

/-- Whether a piece shows nothing but spaces in the text that is read for positions. -/
def Piece.isSpaces (piece : Piece) : Bool :=
  piece.isProperty || piece = .copied ' '

/-- Whether the first of some pieces, spaces aside, is an anchor or a tag. -/
def PropertyAhead (pieces : List Piece) : Prop :=
  ∃ piece ∈ (pieces.dropWhile (· = .copied ' ')).head?, piece.isProperty = true

/-- Whether a node may start at the first character of a line. -/
def Opens (state : State) (line : List Char) : Prop :=
  match state.carry with
  | .nothing => True
  | .quoted _ => False
  | .block header => inBlock header line = false

/-- Whether a text begins with an anchor or a tag: with an `&`, or with a `!` that does not
belong to the tag of a reference. -/
def PropertyAt (chars : List Char) : Prop :=
  ∃ rest, chars = '&' :: rest ∨ chars = '!' :: rest ∧
    ∀ gap target after, chars = includeTag ++ gap ++ target ++ after →
      ¬ ReferenceAt gap target after

/-- Whether a line begins with an anchor or a tag behind its spaces, where a node may start. -/
def BeginsWithProperty (state : State) (line : List Char) : Prop :=
  Opens state line ∧ PropertyAt (line.dropWhile (· = ' '))

/-! ## Leading spaces -/

@[simp] theorem leadingSpaces_space (rest : List Char) :
    leadingSpaces (' ' :: rest) = leadingSpaces rest + 1 := rfl

theorem leadingSpaces_of_head?_ne (hhead : content.head? ≠ some ' ') :
    leadingSpaces content = 0 := by
  have hnone : leadingSpaces (List.replicate 0 ' ' ++ content) = 0 := leadingSpaces_replicate hhead
  exact hnone

theorem leadingSpaces_cons_of_ne (hchar : char ≠ ' ') (rest : List Char) :
    leadingSpaces (char :: rest) = 0 :=
  leadingSpaces_of_head?_ne fun hhead => hchar (Option.some.inj hhead)

theorem leadingSpaces_replicate_append (count : Nat) (rest : List Char) :
    leadingSpaces (List.replicate count ' ' ++ rest) = leadingSpaces rest + count := by
  induction count with
  | zero => rfl
  | succ count ih => rw [List.replicate_succ, List.cons_append, leadingSpaces_space, ih]; rfl

/-- What ends a line does not count as spaces in front of it. -/
theorem leadingSpaces_append_ending {ending : List Char}
    (hending : ∀ char ∈ ending, Text.isLineEnding char = true) (content : List Char) :
    leadingSpaces (content ++ ending) = leadingSpaces content := by
  induction content with
  | nil =>
      refine leadingSpaces_of_head?_ne fun hhead => ?_
      have hspace := hending ' ' (List.mem_of_mem_head? hhead)
      contradiction
  | cons char rest ih =>
      by_cases hspace : char = ' '
      · rw [hspace, List.cons_append, leadingSpaces_space, leadingSpaces_space, ih]
      · rw [List.cons_append, leadingSpaces_cons_of_ne hspace, leadingSpaces_cons_of_ne hspace]

/-- A line is its leading spaces and what is behind them. -/
theorem replicate_leadingSpaces (line : List Char) :
    List.replicate (leadingSpaces line) ' ' ++ line.dropWhile (· = ' ') = line ∧
      (line.dropWhile (· = ' ')).head? ≠ some ' ' := by
  constructor
  · have hspaces : line.takeWhile (· = ' ') = List.replicate (leadingSpaces line) ' ' :=
      List.eq_replicate_iff.mpr ⟨rfl, fun char hchar => by
        simpa using List.all_eq_true.mp List.all_takeWhile char hchar⟩
    rw [← hspaces, List.takeWhile_append_dropWhile]
  · intro hhead
    have hspace := not_of_mem_head?_dropWhile (Option.mem_def.mpr hhead)
    simp at hspace

/-! ## What pieces show at the start of a line -/

theorem forPositions_of_isSpaces (hspaces : piece.isSpaces = true) :
    piece.forPositions = List.replicate piece.source.length ' ' := by
  cases piece with
  | copied char =>
      have hchar : char = ' ' := by simpa [Piece.isSpaces, Piece.isProperty] using hspaces
      rw [hchar]
      rfl
  | anchor text => rfl
  | tag text => rfl
  | reference => contradiction
  | aliased => contradiction

/-- A piece that shows more than spaces begins with something else. -/
theorem exists_cons_of_not_isSpaces (hspaces : piece.isSpaces = false) :
    ∃ first shown, piece.forPositions = first :: shown ∧ first ≠ ' ' := by
  cases piece with
  | copied char =>
      have hchar : char ≠ ' ' := by simpa [Piece.isSpaces, Piece.isProperty] using hspaces
      exact ⟨char, [], rfl, hchar⟩
  | reference gap target => exact ⟨'\'', _, rfl, by decide⟩
  | aliased text => exact ⟨'\'', _, rfl, by decide⟩
  | anchor => contradiction
  | tag => contradiction

/-- The text for positions is indented by as many columns as those pieces take in the source
that show nothing but spaces. -/
theorem leadingSpaces_forPositions (pieces : List Piece) :
    leadingSpaces (pieces.flatMap Piece.forPositions) =
      (sourceOf (pieces.takeWhile Piece.isSpaces)).length := by
  induction pieces with
  | nil => rfl
  | cons piece rest ih =>
      rw [List.flatMap_cons, List.takeWhile_cons]
      cases hspaces : piece.isSpaces with
      | true =>
          rw [forPositions_of_isSpaces hspaces, leadingSpaces_replicate_append, ih]
          simp [Nat.add_comm]
      | false =>
          obtain ⟨first, shown, hshown, hfirst⟩ := exists_cons_of_not_isSpaces hspaces
          rw [hshown, List.cons_append, leadingSpaces_cons_of_ne hfirst]
          rfl

/-- A piece that is no space does not begin with one in the source. -/
theorem leadingSpaces_source_append (hpiece : piece.WellFormed) (hspace : piece ≠ .copied ' ')
    (rest : List Char) : leadingSpaces (piece.source ++ rest) = 0 := by
  cases piece with
  | copied char => exact leadingSpaces_cons_of_ne (fun heq => hspace (heq ▸ rfl)) rest
  | reference gap target => exact leadingSpaces_cons_of_ne (by decide) _
  | anchor text => obtain ⟨name, rfl, -⟩ := hpiece; exact leadingSpaces_cons_of_ne (by decide) _
  | aliased text => obtain ⟨name, rfl, -⟩ := hpiece; exact leadingSpaces_cons_of_ne (by decide) _
  | tag text => obtain ⟨name, rfl, -⟩ := hpiece; exact leadingSpaces_cons_of_ne (by decide) _

theorem propertyAhead_cons (hspace : piece ≠ .copied ' ') (rest : List Piece) :
    PropertyAhead (piece :: rest) ↔ piece.isProperty = true := by
  simp [PropertyAhead, hspace]

/-- Behind the spaces of a line, an anchor or a tag moves what is shown to the right, and no
other piece does. -/
theorem leadingSpaces_cases (hpieces : ∀ piece ∈ pieces, piece.WellFormed) :
    (PropertyAhead pieces → leadingSpaces (sourceOf pieces) <
      leadingSpaces (pieces.flatMap Piece.forPositions)) ∧
    (¬ PropertyAhead pieces → leadingSpaces (pieces.flatMap Piece.forPositions) =
      leadingSpaces (sourceOf pieces)) := by
  induction pieces with
  | nil => exact ⟨fun ⟨_, hnone, _⟩ => absurd hnone (Option.not_mem_none _), fun _ => rfl⟩
  | cons piece rest ih =>
      obtain ⟨hpiece, hrest⟩ := List.forall_mem_cons.mp hpieces
      by_cases hspace : piece = .copied ' '
      · subst hspace
        obtain ⟨hmoved, hkept⟩ := ih hrest
        exact ⟨fun hahead => Nat.succ_lt_succ (hmoved hahead),
          fun hahead => congrArg Nat.succ (hkept hahead)⟩
      · have hspaces : piece.isSpaces = piece.isProperty := by simp [Piece.isSpaces, hspace]
        rw [propertyAhead_cons hspace, sourceOf_cons, leadingSpaces_source_append hpiece hspace,
          leadingSpaces_forPositions, List.takeWhile_cons, hspaces]
        refine ⟨fun hproperty => ?_, fun hproperty => ?_⟩
        · rw [if_pos hproperty, sourceOf_cons, List.length_append]
          exact Nat.add_pos_left (List.length_pos_iff.mpr hpiece.source_ne_nil) _
        · rw [if_neg hproperty]
          rfl

/-! ## What a line begins with -/

theorem propertyAhead_spaces (count : Nat) (pieces : List Piece) :
    PropertyAhead ((List.replicate count ' ').map .copied ++ pieces) ↔ PropertyAhead pieces := by
  induction count with
  | zero => rfl
  | succ count ih => exact ih

/-- Copied text with more than spaces in it has no anchor and no tag in front. -/
theorem not_propertyAhead_copied {chars : List Char} (hchar : char ∈ chars) (hspace : char ≠ ' ')
    (pieces : List Piece) : ¬ PropertyAhead (chars.map .copied ++ pieces) := by
  induction chars with
  | nil => exact absurd hchar List.not_mem_nil
  | cons first chars ih =>
      by_cases hfirst : first = ' '
      · subst hfirst
        exact ih ((List.mem_cons.mp hchar).resolve_left hspace)
      · rw [List.map_cons, List.cons_append, propertyAhead_cons (by simp [hfirst])]
        exact Bool.false_ne_true

theorem not_propertyAhead_of_copied (chars : List Char) :
    ¬ PropertyAhead (chars.map .copied) := by
  rintro ⟨piece, hpiece, hproperty⟩
  have hmem := (List.dropWhile_sublist _).subset (List.mem_of_mem_head? hpiece)
  obtain ⟨char, -, rfl⟩ := List.mem_map.mp hmem
  contradiction

theorem not_propertyAt (hamp : char ≠ '&') (hbang : char ≠ '!') (rest : List Char) :
    ¬ PropertyAt (char :: rest) := by
  rintro ⟨others, hchars | ⟨hchars, -⟩⟩
  · exact hamp (List.cons.inj hchars).1
  · exact hbang (List.cons.inj hchars).1

/-- Where a node may start, the first piece of a text is an anchor or a tag if and only if the
text begins with one. -/
theorem propertyAhead_walk (indent depth : Nat) (hspace : char ≠ ' ') (rest : List Char) :
    PropertyAhead (walk indent (.fresh depth) (char :: rest)).pieces ↔
      PropertyAt (char :: rest) := by
  have hadvance := advance_step indent (.fresh depth) char rest
  have hcopied : ∀ pieces, ¬ PropertyAhead (.copied char :: pieces) :=
    not_propertyAhead_copied (List.mem_singleton_self char) hspace
  cases hstep : step indent (.fresh depth) char rest with
  | stop carry =>
      rw [hstep] at hadvance
      -- what stops the walk is a comment, a quote or a block, and no property
      rw [walk_stop hstep]
      refine iff_of_false (hcopied _) ?_
      cases hadvance with
      | comment => exact not_propertyAt (by decide) (by decide) rest
      | openQuote _ hquote =>
          rcases hquote with rfl | rfl <;> exact not_propertyAt (by decide) (by decide) rest
      | block _ hblock =>
          rcases hblock with rfl | rfl <;> exact not_propertyAt (by decide) (by decide) rest
  | take pieces next after =>
      rw [hstep] at hadvance
      rw [walk_take hstep, Scan.prepend]
      cases hadvance with
      | anchor => exact iff_of_true ⟨_, rfl, rfl⟩ ⟨rest, .inl rfl⟩
      | tag _ hnone => exact iff_of_true ⟨_, rfl, rfl⟩ ⟨rest, .inr ⟨rfl, hnone⟩⟩
      | reference _ htext hreference =>
          refine iff_of_false (by simp [propertyAhead_cons, Piece.isProperty]) ?_
          -- `!include` with a target is a reference and not a property
          rintro ⟨others, hamp | ⟨-, hnone⟩⟩
          · exact absurd (List.cons.inj hamp).1 (by decide)
          · exact hnone _ _ _ htext hreference
      | aliased =>
          exact iff_of_false (by simp [propertyAhead_cons, Piece.isProperty])
            (not_propertyAt (by decide) (by decide) rest)
      | gap hgap =>
          obtain rfl := (isGap_iff.mp hgap).resolve_left hspace
          exact iff_of_false (hcopied _) (not_propertyAt (by decide) (by decide) rest)
      | quoted _ hquote =>
          refine iff_of_false (hcopied _) ?_
          rcases hquote with rfl | rfl <;> exact not_propertyAt (by decide) (by decide) rest
      | dash => exact iff_of_false (hcopied _) (not_propertyAt (by decide) (by decide) rest)
      | bracket _ hbracket =>
          refine iff_of_false (hcopied _) ?_
          rcases hbracket with rfl | rfl <;> exact not_propertyAt (by decide) (by decide) rest
      | plain _ _ hplain =>
          obtain ⟨hamp, -, hbang⟩ := (hplain rfl).not_property
          exact iff_of_false (hcopied _) (not_propertyAt hamp hbang rest)

theorem scanLine_of_opens (hopens : Opens state line) :
    scanLine state line = walk (leadingSpaces line) (.fresh state.depth) line := by
  rcases state with ⟨_ | quote | header, depth⟩
  · exact scanLine_nothing depth line
  · exact absurd hopens id
  · exact scanLine_behindBlock hopens

/-- A line at the start of which no node may start begins with copied text. -/
theorem not_propertyAhead_of_not_opens (hopens : ¬ Opens state line)
    (hquote : state.carry.IsQuote) : ¬ PropertyAhead (scanLine state line).pieces := by
  rcases state with ⟨_ | quote | header, depth⟩
  · exact absurd trivial hopens
  · cases hclose : closeQuote quote false line with
    | none =>
        rw [scanLine_inQuotes hclose]
        exact not_propertyAhead_of_copied line
    | some closed =>
        obtain ⟨inside, after⟩ := closed
        have hlast := List.mem_of_mem_getLast? (ByteWalk.getLast?_of_closeQuote hclose)
        rw [scanLine_behindQuotes hclose]
        refine not_propertyAhead_copied hlast ?_ _
        rcases hquote with rfl | rfl <;> decide
  · have hline : inBlock header line = true := by
      simpa [Opens] using hopens
    rw [scanLine_inBlock hline]
    exact not_propertyAhead_of_copied line

/-- A line begins with an anchor or a tag if and only if the first of its pieces, spaces
aside, is one. -/
theorem propertyAhead_scanLine (hquote : state.carry.IsQuote) (line : List Char) :
    PropertyAhead (scanLine state line).pieces ↔ BeginsWithProperty state line := by
  by_cases hopens : Opens state line
  · obtain ⟨hline, hhead⟩ := replicate_leadingSpaces line
    have hscan : scanLine state line =
        (walk (leadingSpaces line) (.fresh state.depth) (line.dropWhile (· = ' '))).prepend
          ((List.replicate (leadingSpaces line) ' ').map .copied) := by
      rw [scanLine_of_opens hopens, ← walk_replicate, hline]
    rw [hscan, Scan.prepend, propertyAhead_spaces, BeginsWithProperty, and_iff_right hopens]
    cases hcontent : line.dropWhile (· = ' ') with
    | nil =>
        refine iff_of_false (not_propertyAhead_of_copied []) ?_
        rintro ⟨rest, hnil | ⟨hnil, -⟩⟩ <;> exact absurd hnil.symm (List.cons_ne_nil _ _)
    | cons char rest =>
        rw [hcontent] at hhead
        exact propertyAhead_walk _ _ (fun heq => hhead (congrArg some heq)) rest
  · refine iff_of_false (not_propertyAhead_of_not_opens hopens hquote) fun hbegins => ?_
    exact hopens hbegins.1

/-! ## Lines of a text -/

/-- How a line, scanned in some state, is indented in the text that is read for positions. -/
structure Indented (state : State) (line shown : List Char) : Prop where
  /-- By as many columns as its pieces take that show nothing but spaces. -/
  width : leadingSpaces shown =
    (sourceOf ((scanLine state (Text.splitEnding line).1).pieces.takeWhile Piece.isSpaces)).length
  /-- As before, unless the line begins with an anchor or a tag. -/
  kept : ¬ BeginsWithProperty state (Text.splitEnding line).1 →
    leadingSpaces shown = leadingSpaces line
  /-- More than before if it does. -/
  moved : BeginsWithProperty state (Text.splitEnding line).1 →
    leadingSpaces line < leadingSpaces shown

theorem indented_scanLine (hquote : state.carry.IsQuote) (line : List Char) :
    Indented state line ((scanLine state (Text.splitEnding line).1).pieces.flatMap
      Piece.forPositions ++ (Text.splitEnding line).2) := by
  obtain ⟨hline, -, hending⟩ := Text.splitEnding_spec line
  have hbefore := leadingSpaces_append_ending hending (Text.splitEnding line).1
  rw [hline, ← sourceOf_scanLine state (Text.splitEnding line).1] at hbefore
  have hpieces : ∀ piece ∈ (scanLine state (Text.splitEnding line).1).pieces, piece.WellFormed :=
    fun _ hpiece => wellFormed_scanLine hpiece
  obtain ⟨hmoved, hkept⟩ := leadingSpaces_cases hpieces
  rw [propertyAhead_scanLine hquote] at hmoved hkept
  refine ⟨?_, ?_, ?_⟩
  · rw [leadingSpaces_append_ending hending, leadingSpaces_forPositions]
  · rwa [leadingSpaces_append_ending hending, hbefore]
  · rwa [leadingSpaces_append_ending hending, hbefore]

variable {text : String} {front later : List (List Char)}

theorem isQuote_stateBehind (hquote : state.carry.IsQuote) (lines : List (List Char)) :
    (stateBehind state lines).carry.IsQuote := by
  induction lines generalizing state with
  | nil => exact hquote
  | cons line rest ih => exact ih (isQuote_scanLine hquote _)

/-- A line of the text for positions is made from the line of the text in its place. -/
theorem positionsLine_at (hlines : Text.cutLines text.toList = front ++ line :: later) :
    (Text.cutLines (positionsText text).toList)[front.length]? =
      some ((scanLine (stateBehind .start front) (Text.splitEnding line).1).pieces.flatMap
        Piece.forPositions ++ (Text.splitEnding line).2) := by
  rw [positionsText, cutLines_render showing_forPositions, scan, hlines, List.getElem?_map,
    getElem?_scanLines]
  rfl

/-- In the text for positions a line is indented as before if it does not begin with an anchor
or a tag, and more than before if it does.  So it stays in one column with another line that
does not begin with one if and only if it does not either. -/
theorem indented_of_line (hlines : Text.cutLines text.toList = front ++ line :: later) :
    ∃ shown, (Text.cutLines (positionsText text).toList)[front.length]? = some shown ∧
      Indented (stateBehind .start front) line shown ∧
      ∀ before sibling after beside, Text.cutLines text.toList = before ++ sibling :: after →
        (Text.cutLines (positionsText text).toList)[before.length]? = some beside →
        leadingSpaces sibling = leadingSpaces line →
        ¬ BeginsWithProperty (stateBehind .start before) (Text.splitEnding sibling).1 →
        (leadingSpaces beside = leadingSpaces shown ↔
          ¬ BeginsWithProperty (stateBehind .start front) (Text.splitEnding line).1) := by
  have hindented : ∀ {others : List (List Char)} {other : List Char},
      Indented (stateBehind .start others) other _ :=
    fun {others other} => indented_scanLine (isQuote_stateBehind isQuote_start others) other
  refine ⟨_, positionsLine_at hlines, hindented, ?_⟩
  intro before sibling after beside hsibling hbeside hsame hplain
  rw [positionsLine_at hsibling] at hbeside
  obtain rfl := Option.some.inj hbeside
  rw [hindented.kept hplain, hsame]
  constructor
  · intro halike hbegins
    exact absurd halike (Nat.ne_of_lt (hindented.moved hbegins))
  · exact fun hbegins => (hindented.kept hbegins).symm

/-- Of two entries in one column the second has an anchor in front of its key.  It moves to the
right by the anchor and the space behind it. -/
theorem indented_of_anchored_key :
    Text.cutLines "a: 1\n&b c: 2\n".toList = ["a: 1\n".toList] ++ "&b c: 2\n".toList :: [] ∧
      ∃ shown, (Text.cutLines (positionsText "a: 1\n&b c: 2\n").toList)[1]? = some shown ∧
        leadingSpaces "&b c: 2\n".toList = leadingSpaces "a: 1\n".toList ∧
        leadingSpaces shown ≠ leadingSpaces "a: 1\n".toList ∧ leadingSpaces shown = 3 := by
  have hlines : Text.cutLines "a: 1\n&b c: 2\n".toList =
      ["a: 1\n".toList] ++ "&b c: 2\n".toList :: [] := by decide
  have hbegins : BeginsWithProperty (stateBehind .start ["a: 1\n".toList])
      (Text.splitEnding "&b c: 2\n".toList).1 := ⟨trivial, "b c: 2".toList, .inl (by decide)⟩
  have hplain : ¬ BeginsWithProperty (stateBehind .start []) (Text.splitEnding "a: 1\n".toList).1 :=
    fun hboth => not_propertyAt (by decide) (by decide) _ hboth.2
  obtain ⟨shown, hshown, hindented, hbeside⟩ := indented_of_line hlines
  have hfirst := hbeside [] "a: 1\n".toList ["&b c: 2\n".toList] "a: 1\n".toList (by decide)
    (by decide +kernel) (by decide) hplain
  refine ⟨hlines, shown, hshown, by decide, fun halike => ?_, ?_⟩
  · exact hfirst.mp halike.symm hbegins
  · rw [hindented.width]
    decide

/-- A key with an anchor in front of it stands in the column of the key above it.  The text is
read for values, as a mapping with both.  In the text for positions the line is indented by
three columns and goes on with the plain scalar above, so the document is refused.  Where no
scalar stands above, the entry becomes one of the entry above without anyone noticing. -/
theorem sibling_parted :
    positionsText "#%RAML 1.0\ntitle: x\n&b version: 1\n" =
        "#%RAML 1.0\ntitle: x\n   version: 1\n" ∧
      (Document.valueOf "#%RAML 1.0\ntitle: x\n&b version: 1\n").toOption.any
        (·.same (.mapping [(.string "title", .string "x"),
          (.string "version", .number (.integer 1))])) = true ∧
      (match Document.load "api.raml" "" "#%RAML 1.0\ntitle: x\n&b version: 1\n" with
        | .error (.outline fault) => some fault.problem
        | _ => none) = some .valueNotAllowed ∧
      (Document.load "api.raml" "" "#%RAML 1.0\n/a:\n&b /c:\n").toOption.any (fun document =>
        document.value.same (.mapping [(.string "/a", .null), (.string "/c", .null)]) &&
          document.root.map (fun entry => entry.1.text) = ["/a"]) = true := by
  refine ⟨?_, ?_, ?_, ?_⟩ <;> decide +kernel

end RamlCheck.Include
