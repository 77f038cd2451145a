import RamlCheck.Proofs.Include.Lossless
import RamlCheck.Proofs.Include.Walk

/-!
# The scan of a text, move by move

The scan of a text goes from spot to spot: in front of a line, where it is known what the
lines before left open, or inside a line, where the walk stands.  `Move` lists the moves
that it makes, `Reaches` says which spots it comes to and what it has taken on the way.

This is the scan of before: what it has taken and what it still takes are the pieces of
the text (`Reaches.pieces_eq`), and it comes to the end of every text
(`reaches_finish`).

## Strategy

What is true of the text in front of a spot and behind it is kept by each move
(`Move.placed`).  Each move leaves less to do (`Move.todo_lt`), which is what an
induction over the rest of the scan goes by.
-/

namespace RamlCheck.Include

/-- Where the scan of a text stands: between two lines, or in a line behind `front` and
in front of `rest`, with the ending of the line and the lines behind it. -/
inductive Spot
  | between (state : State) (lines : List (List Char))
  | inside (front rest ending : List Char) (stance : Stance) (lines : List (List Char))

/-- The text that the scan has not passed yet. -/
def Spot.ahead : Spot → List Char
  | .between _ lines => lines.flatten
  | .inside _ rest ending _ lines => rest ++ ending ++ lines.flatten

/-- The pieces of a line, its ending copied. -/
def ScannedLine.all (line : ScannedLine) : List Piece :=
  line.pieces ++ line.ending.map .copied

/-- The pieces of a text, from its first character to its last. -/
def piecesOf (text : String) : List Piece :=
  (scan text).flatMap ScannedLine.all

/-- What the scan takes from a spot on. -/
def Spot.pieces : Spot → List Piece
  | .between state lines => (scanLines state lines).flatMap ScannedLine.all
  | .inside front rest ending stance lines =>
      let scan := walk (leadingSpaces (front ++ rest)) stance rest
      scan.pieces ++ ending.map .copied ++ (scanLines scan.after lines).flatMap ScannedLine.all

/-- The spot in front of the first line. -/
def Spot.start (text : String) : Spot :=
  .between .start (Text.cutLines text.toList)

/-- The spot at the start of a line, at some number of open flow collections. -/
def Spot.enter (depth : Nat) (line : List Char) (lines : List (List Char)) : Spot :=
  .inside [] (Text.splitEnding line).1 (Text.splitEnding line).2 (.fresh depth) lines

/-- The moves of the scan, with the pieces that they take. -/
inductive Move : Spot → List Piece → Spot → Prop
  | enter {depth : Nat} {line : List Char} {lines : List (List Char)} :
      Move (.between { carry := .nothing, depth } (line :: lines)) [] (.enter depth line lines)
  | passBlock {header depth : Nat} {line : List Char} {lines : List (List Char)}
      (hline : inBlock header (Text.splitEnding line).1 = true) :
      Move (.between { carry := .block header, depth } (line :: lines)) (line.map .copied)
        (.between { carry := .block header, depth } lines)
  | leaveBlock {header depth : Nat} {line : List Char} {lines : List (List Char)}
      (hline : inBlock header (Text.splitEnding line).1 = false) :
      Move (.between { carry := .block header, depth } (line :: lines)) [] (.enter depth line lines)
  | passQuotes {quote : Char} {depth : Nat} {line : List Char} {lines : List (List Char)}
      (hclose : closeQuote quote false (Text.splitEnding line).1 = none) :
      Move (.between { carry := .quoted quote, depth } (line :: lines)) (line.map .copied)
        (.between { carry := .quoted quote, depth } lines)
  | leaveQuotes {quote : Char} {depth : Nat} {line inside after : List Char}
      {lines : List (List Char)}
      (hclose : closeQuote quote false (Text.splitEnding line).1 = some (inside, after)) :
      Move (.between { carry := .quoted quote, depth } (line :: lines)) (inside.map .copied)
        (.inside inside after (Text.splitEnding line).2 (Stance.fresh depth).behind lines)
  | take {front rest ending after : List Char} {char : Char} {stance next : Stance}
      {lines : List (List Char)} {pieces : List Piece}
      (hstep : step (leadingSpaces (front ++ char :: rest)) stance char rest =
        .take pieces next after) :
      Move (.inside front (char :: rest) ending stance lines) pieces
        (.inside (front ++ sourceOf pieces) after ending next lines)
  | stop {front rest ending : List Char} {char : Char} {stance : Stance} {carry : Carry}
      {lines : List (List Char)}
      (hstep : step (leadingSpaces (front ++ char :: rest)) stance char rest = .stop carry) :
      Move (.inside front (char :: rest) ending stance lines)
        ((char :: rest ++ ending).map .copied) (.between { carry, depth := stance.depth } lines)
  | leave {front ending : List Char} {stance : Stance} {lines : List (List Char)} :
      Move (.inside front [] ending stance lines) (ending.map .copied)
        (.between { carry := .nothing, depth := stance.depth } lines)

/-- The spots that the scan of a text comes to, with what it has taken by then. -/
inductive Reaches (text : String) : List Piece → Spot → Prop
  | start : Reaches text [] (.start text)
  | move {taken pieces : List Piece} {spot next : Spot} (hreach : Reaches text taken spot)
      (hmove : Move spot pieces next) : Reaches text (taken ++ pieces) next

/-! ## The moves make up the scan -/

variable {text : String} {taken pieces : List Piece} {spot next : Spot}

theorem sourceOf_append (first second : List Piece) :
    sourceOf (first ++ second) = sourceOf first ++ sourceOf second := by
  simp [sourceOf]

theorem flatMap_all_scanLines (state : State) (line : List Char) (lines : List (List Char)) :
    (scanLines state (line :: lines)).flatMap ScannedLine.all =
      (scanLine state (Text.splitEnding line).1).pieces ++
        (Text.splitEnding line).2.map .copied ++
        (scanLines (scanLine state (Text.splitEnding line).1).after lines).flatMap
          ScannedLine.all := by
  rw [scanLines_cons, List.flatMap_cons]
  rfl

/-- A line is its content and its ending. -/
theorem map_copied_splitEnding (line : List Char) :
    (Text.splitEnding line).1.map Piece.copied ++ (Text.splitEnding line).2.map .copied =
      line.map .copied := by
  rw [← List.map_append, (Text.splitEnding_spec line).1]

theorem Spot.pieces_enter (depth : Nat) (line : List Char) (lines : List (List Char)) :
    (Spot.enter depth line lines).pieces =
      (walk (leadingSpaces (Text.splitEnding line).1) (.fresh depth)
          (Text.splitEnding line).1).pieces ++ (Text.splitEnding line).2.map .copied ++
        (scanLines (walk (leadingSpaces (Text.splitEnding line).1) (.fresh depth)
          (Text.splitEnding line).1).after lines).flatMap ScannedLine.all :=
  rfl

/-- What is taken from a spot on is what a move takes and what is taken behind it. -/
theorem Move.pieces_eq (hmove : Move spot pieces next) : spot.pieces = pieces ++ next.pieces := by
  cases hmove with
  | enter =>
      rw [Spot.pieces, flatMap_all_scanLines, scanLine_nothing, Spot.pieces_enter]
      rfl
  | @passBlock header depth line lines hline =>
      rw [Spot.pieces, flatMap_all_scanLines, scanLine_inBlock hline, ← map_copied_splitEnding line]
      rfl
  | leaveBlock hline =>
      rw [Spot.pieces, flatMap_all_scanLines, scanLine_behindBlock hline, Spot.pieces_enter]
      rfl
  | @passQuotes quote depth line lines hclose =>
      rw [Spot.pieces, flatMap_all_scanLines, scanLine_inQuotes hclose,
        ← map_copied_splitEnding line]
      rfl
  | leaveQuotes hclose =>
      rw [Spot.pieces, flatMap_all_scanLines, scanLine_behindQuotes hclose, Spot.pieces,
        append_of_closeQuote hclose]
      simp [Scan.prepend]
  | @take front rest ending after char stance next lines pieces hstep =>
      rw [Spot.pieces, Spot.pieces, walk_take hstep, List.append_assoc front,
        sourceOf_of_step hstep]
      simp [Scan.prepend]
  | stop hstep =>
      rw [Spot.pieces, Spot.pieces, walk_stop hstep]
      simp [Scan.copyRest]
  | leave => rfl

/-- A move takes text from the front of what is ahead. -/
theorem Move.source_eq (hmove : Move spot pieces next) :
    sourceOf pieces ++ next.ahead = spot.ahead := by
  cases hmove with
  | @enter depth line lines =>
      simp [Spot.ahead, Spot.enter, (Text.splitEnding_spec line).1]
  | @leaveBlock header depth line lines =>
      simp [Spot.ahead, Spot.enter, (Text.splitEnding_spec line).1]
  | @leaveQuotes quote depth line inside after lines hclose =>
      rw [sourceOf_copied, Spot.ahead, Spot.ahead, ← List.append_assoc, ← List.append_assoc,
        append_of_closeQuote hclose, (Text.splitEnding_spec line).1, List.flatten_cons]
  | take hstep =>
      rw [Spot.ahead, Spot.ahead, ← List.append_assoc, ← List.append_assoc, sourceOf_of_step hstep]
  | passBlock => simp [Spot.ahead]
  | passQuotes => simp [Spot.ahead]
  | stop => simp [Spot.ahead, -List.map_append, -List.map_cons]
  | leave => simp [Spot.ahead]

theorem Reaches.pieces_eq (hreach : Reaches text taken spot) :
    piecesOf text = taken ++ spot.pieces := by
  induction hreach with
  | start => rfl
  | move _ hmove ih => rw [ih, hmove.pieces_eq, List.append_assoc]

theorem Reaches.source_eq (hreach : Reaches text taken spot) :
    sourceOf taken ++ spot.ahead = text.toList := by
  induction hreach with
  | start => exact Text.flatten_cutLines text.toList
  | move _ hmove ih => rw [sourceOf_append, List.append_assoc, hmove.source_eq, ih]

/-- The rewritten texts show the pieces one by one. -/
theorem toList_shownText (properties : Bool) (text : String) :
    (shownText properties text).toList = (piecesOf text).flatMap (shownFor properties) := by
  have hcopied : ∀ chars : List Char,
      (chars.map Piece.copied).flatMap (shownFor properties) = chars := by
    intro chars
    rw [List.flatMap_map]
    cases properties <;> exact List.flatMap_singleton' chars
  rw [shownText_eq_render, toList_render, piecesOf, List.flatMap_assoc, List.flatMap]
  congr 2
  funext line
  rw [ScannedLine.all, List.flatMap_append, hcopied]
  rfl

/-! ## What is true of a spot -/

/-- What is true of a spot behind some text: inside a line the walk knows whether a gap
stands in front of it, and the lines are cut as a text is. -/
def Spot.Placed (passed : List Char) : Spot → Prop
  | .between state lines => state.carry.IsQuote ∧ Text.IsCut lines
  | .inside front rest ending stance lines =>
      ByteWalk.AtGap front stance ∧ front <:+ passed ∧
        Text.splitEnding (front ++ rest ++ ending) = (front ++ rest, ending) ∧
        Text.IsCut ((front ++ rest ++ ending) :: lines)

theorem splitEnding_parts {line : List Char} :
    Text.splitEnding ((Text.splitEnding line).1 ++ (Text.splitEnding line).2) =
      Text.splitEnding line := by
  rw [(Text.splitEnding_spec line).1]

theorem Spot.placed_enter {line : List Char} {lines : List (List Char)}
    (hcut : Text.IsCut (line :: lines)) (passed : List Char) (depth : Nat) :
    (Spot.enter depth line lines).Placed passed := by
  refine ⟨rfl, List.nil_suffix, ?_, ?_⟩
  · exact splitEnding_parts
  · rwa [List.nil_append, (Text.splitEnding_spec line).1]

theorem Move.placed (hmove : Move spot pieces next) {passed : List Char}
    (hplaced : spot.Placed passed) : next.Placed (passed ++ sourceOf pieces) := by
  cases hmove with
  | enter => exact Spot.placed_enter hplaced.2 _ _
  | leaveBlock => exact Spot.placed_enter hplaced.2 _ _
  | passBlock => exact ⟨hplaced.1, hplaced.2.2.2.2⟩
  | passQuotes => exact ⟨hplaced.1, hplaced.2.2.2.2⟩
  | @leaveQuotes quote depth line inside after lines hclose =>
      -- the closing quote is the last character passed, which is no gap
      have hparts := append_of_closeQuote hclose
      refine ⟨?_, ?_, ?_, ?_⟩
      · rw [ByteWalk.AtGap, ByteWalk.getLast?_of_closeQuote hclose]
        rcases hplaced.1 with rfl | rfl <;> rfl
      · rw [sourceOf_copied]
        exact List.suffix_append _ _
      · rw [hparts]
        exact splitEnding_parts
      · rw [hparts, (Text.splitEnding_spec line).1]
        exact hplaced.2
  | take hstep =>
      -- the pieces of a step go to the front of the line
      obtain ⟨-, ⟨before, hfront⟩, hsplit, hcut⟩ := hplaced
      have hparts := sourceOf_of_step hstep
      refine ⟨ByteWalk.atGap_take (advance_of_step hstep), ⟨before, ?_⟩, ?_, ?_⟩
      · rw [← List.append_assoc, hfront]
      · rwa [List.append_assoc _ (sourceOf pieces), hparts]
      · rwa [List.append_assoc _ (sourceOf pieces), hparts]
  | stop hstep => exact ⟨(advance_of_step hstep).isQuote, hplaced.2.2.2.2.2.2⟩
  | leave => exact ⟨trivial, hplaced.2.2.2.2.2.2⟩

theorem Reaches.placed (hreach : Reaches text taken spot) : spot.Placed (sourceOf taken) := by
  induction hreach with
  | start => exact ⟨trivial, Text.isCut_cutLines text.toList⟩
  | move _ hmove ih => rw [sourceOf_append]; exact hmove.placed ih

/-! ## The scan comes to an end -/

/-- How much there is left to do for the scan. -/
def Spot.todo : Spot → Nat
  | .between _ lines => 2 * (lines.flatten.length + lines.length)
  | .inside _ rest ending _ lines =>
      2 * (rest.length + ending.length + lines.flatten.length + lines.length) + 1

theorem Move.todo_lt (hmove : Move spot pieces next) : next.todo < spot.todo := by
  -- a line is its content and its ending, and each of them is counted once
  have hlength : ∀ line : List Char,
      (Text.splitEnding line).1.length + (Text.splitEnding line).2.length = line.length :=
    fun line => by rw [← List.length_append, (Text.splitEnding_spec line).1]
  cases hmove with
  | @enter depth line lines =>
      have hline := hlength line
      simp only [Spot.todo, Spot.enter, List.flatten_cons, List.length_append, List.length_cons]
      omega
  | @leaveBlock header depth line lines =>
      have hline := hlength line
      simp only [Spot.todo, Spot.enter, List.flatten_cons, List.length_append, List.length_cons]
      omega
  | @leaveQuotes quote depth line inside after lines hclose =>
      have hline := hlength line
      have hcontent := congrArg List.length (append_of_closeQuote hclose)
      simp only [Spot.todo, List.flatten_cons, List.length_append, List.length_cons] at hcontent ⊢
      omega
  | take hstep =>
      have hless := length_after_le hstep
      simp only [Spot.todo, List.length_cons]
      omega
  | stop => simp only [Spot.todo, List.length_cons]; omega
  | leave => simp only [Spot.todo, List.length_nil]; omega
  | passBlock =>
      simp only [Spot.todo, List.flatten_cons, List.length_append, List.length_cons]
      omega
  | passQuotes =>
      simp only [Spot.todo, List.flatten_cons, List.length_append, List.length_cons]
      omega

/-- Unless no line is left, there is a move. -/
theorem Spot.exists_move (spot : Spot) :
    (∃ state, spot = .between state []) ∨ ∃ pieces next, Move spot pieces next := by
  rcases spot with ⟨state, _ | ⟨line, lines⟩⟩ | ⟨front, _ | ⟨char, rest⟩, ending, stance, lines⟩
  · exact .inl ⟨state, rfl⟩
  · right
    rcases state with ⟨_ | quote | header, depth⟩
    · exact ⟨_, _, .enter⟩
    · cases hclose : closeQuote quote false (Text.splitEnding line).1 with
      | none => exact ⟨_, _, .passQuotes hclose⟩
      | some closed => exact ⟨_, _, .leaveQuotes hclose⟩
    · cases hline : inBlock header (Text.splitEnding line).1 with
      | true => exact ⟨_, _, .passBlock hline⟩
      | false => exact ⟨_, _, .leaveBlock hline⟩
  · exact .inr ⟨_, _, .leave⟩
  · right
    cases hstep : step (leadingSpaces (front ++ char :: rest)) stance char rest with
    | stop carry => exact ⟨_, _, .stop hstep⟩
    | take pieces next after => exact ⟨_, _, .take hstep⟩

/-- What holds where no line is left, and in front of each move if it holds behind it,
holds at every spot that the scan comes to. -/
theorem Reaches.backwards {motive : List Piece → Spot → Prop}
    (finish : ∀ taken state, Reaches text taken (.between state []) →
      motive taken (.between state []))
    (move : ∀ taken spot pieces next, Reaches text taken spot → Move spot pieces next →
      motive (taken ++ pieces) next → motive taken spot)
    (hreach : Reaches text taken spot) : motive taken spot := by
  induction htodo : spot.todo using Nat.strongRecOn generalizing taken spot with
  | ind todo ih =>
      rcases spot.exists_move with ⟨state, rfl⟩ | ⟨pieces, next, hmove⟩
      · exact finish taken state hreach
      · have hless := hmove.todo_lt
        rw [htodo] at hless
        exact move taken spot pieces next hreach hmove (ih _ hless (hreach.move hmove) rfl)

/-- The scan of a text comes to its end, and has taken its pieces by then. -/
theorem reaches_finish (text : String) :
    ∃ state, Reaches text (piecesOf text) (.between state []) := by
  have hstart : Reaches text [] (.start text) := .start
  refine hstart.backwards (motive := fun _ _ =>
    ∃ state, Reaches text (piecesOf text) (.between state [])) ?_ ?_
  · intro taken state hreach
    have hpieces : piecesOf text = taken ++ [] := hreach.pieces_eq
    rw [List.append_nil] at hpieces
    exact ⟨state, hpieces ▸ hreach⟩
  · exact fun _ _ _ _ _ _ hfinish => hfinish

end RamlCheck.Include
