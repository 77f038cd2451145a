import RamlCheck.Proofs.Include.Spot
import RamlCheck.Proofs.Yaml.Cells

/-!
# How far the text for positions drifts

In the text that is read for positions a reference or an alias is wider, or narrower, than
in the source (`Piece.widening`), and whatever comes behind it in its line is moved by as
many columns.  `drift` adds this up; a break ends it.

A place in that text lies in what is shown for some piece, in the line of that piece, moved
to the right by the drift of the pieces in front of it (`exists_piece_of_place`).

## Strategy

Two texts are measured side by side, piece by piece: the sources and what is shown for them.
The induction over the pieces starts from two places that are some columns apart, and keeps
the measure's memory of a carriage return the same on both sides.  Such a return may stand
inside an anchor or a tag, where it is blanked and the lines no longer agree; texts with such
a piece are left out (`Piece.holdsReturn`).
-/

namespace RamlCheck.Include

open Yaml (Mark isBreak12 markedFrom markBehind)

/-- By how many columns a piece is wider in the text that is read for positions. -/
def Piece.widening (piece : Piece) : Int :=
  piece.forPositions.length - piece.source.length

/-- How far the columns behind a piece are moved to the right, if those in front of it are
moved by `moved`.  They are right again behind a break. -/
def Piece.move (moved : Int) (piece : Piece) : Int :=
  match piece with
  | .copied char => if isBreak12 char then 0 else moved
  | piece => moved + piece.widening

/-- How far the columns behind some pieces are moved to the right. -/
def drift (pieces : List Piece) : Int :=
  pieces.foldl Piece.move 0

/-- Whether a piece that is not copied holds no break. -/
def Piece.Unbroken : Piece → Prop
  | .copied _ => True
  | piece => ∀ char ∈ piece.source, isBreak12 char = false

/-! ## How wide pieces are shown -/

theorem length_singleQuoted (text : List Char) :
    (singleQuoted text).length = text.length + 2 + text.count '\'' := by
  have hinside : ∀ chars : List Char,
      (chars.flatMap fun char => if char = '\'' then ['\'', '\''] else [char]).length =
        chars.length + chars.count '\'' := by
    intro chars
    induction chars with
    | nil => rfl
    | cons char rest ih =>
        rw [List.flatMap_cons, List.length_append, ih, List.length_cons, List.count_cons]
        by_cases hquote : char = '\''
        · simp [hquote]
          omega
        · simp [hquote]
          omega
  simp only [singleQuoted, List.length_append, hinside, List.length_singleton]
  omega

theorem widening_of_keepsWidth {piece : Piece} (hkeeps : piece.keepsWidth = true) :
    piece.widening = 0 := by
  cases piece with
  | reference => contradiction
  | aliased => contradiction
  | copied char => rfl
  | anchor text => simp [Piece.widening]
  | tag text => simp [Piece.widening]

/-- An alias gets quotes, and each quote in it is doubled. -/
theorem widening_aliased (text : List Char) :
    (Piece.aliased text).widening = 2 + text.count '\'' := by
  simp only [Piece.widening, Piece.forPositions, Piece.source, length_singleQuoted]
  omega

/-- A reference gets quotes too, and a single space instead of its gap. -/
theorem widening_reference (gap target : List Char) :
    (Piece.reference gap target).widening = 3 + target.count '\'' - gap.length := by
  have hmark : includeMark.count '\'' = 0 := by decide
  have hlength : includeMark.length = includeTag.length + 1 := by decide
  simp only [Piece.widening, Piece.forPositions, Piece.source, length_singleQuoted,
    List.length_append, List.count_append, hmark, hlength]
  omega

/-- Two quotes and one space make a reference behind a single space two columns wider. -/
example : (Piece.reference [' '] "get.raml".toList).widening = 2 := by decide

/-- Anchors and tags move nothing. -/
theorem drift_eq_zero {pieces : List Piece} (hkeeps : ∀ piece ∈ pieces, piece.keepsWidth = true) :
    drift pieces = 0 := by
  induction pieces with
  | nil => rfl
  | cons piece rest ih =>
      obtain ⟨hpiece, hrest⟩ := List.forall_mem_cons.mp hkeeps
      have hmove : piece.move 0 = 0 := by
        unfold Piece.move
        split
        · exact ite_self 0
        · rw [widening_of_keepsWidth hpiece, Int.add_zero]
      rw [drift, List.foldl_cons, hmove]
      exact ih hrest

/-! ## Measuring two texts side by side -/

theorem Piece.Unbroken.copied_or {piece : Piece} (hunbroken : piece.Unbroken) :
    (∃ char, piece = .copied char) ∨
      (∀ moved, piece.move moved = moved + piece.widening) ∧
        ∀ char ∈ piece.source, isBreak12 char = false := by
  cases piece with
  | copied char => exact .inl ⟨char, rfl⟩
  | _ => exact .inr ⟨fun _ => rfl, hunbroken⟩

/-- What is shown for a piece without a break has none either. -/
theorem isBreak12_of_mem_forPositions {piece : Piece}
    (hsource : ∀ char ∈ piece.source, isBreak12 char = false) :
    ∀ char ∈ piece.forPositions, isBreak12 char = false := by
  intro char hchar
  rcases showing_forPositions.mem hchar with hmem | rfl | rfl
  · exact hsource char hmem
  · decide
  · decide

/-- Whether one place is in the line of another, some columns behind it. -/
structure MovedBy (moved : Int) (source shown : Mark) : Prop where
  line : shown.line = source.line
  column : (shown.column : Int) = source.column + moved

variable {moved : Int} {source shown : Mark} {afterReturn : Bool}

/-- Behind text without a break that takes the place of other such text. -/
theorem MovedBy.behind_unbroken (hmoved : MovedBy moved source shown)
    {front frontShown : List Char} (hfront : front ≠ []) (hshown : frontShown ≠ [])
    (hsource : ∀ char ∈ front, isBreak12 char = false)
    (hbreak : ∀ char ∈ frontShown, isBreak12 char = false) {wider : Int}
    (hwider : wider = frontShown.length - front.length)
    {rest restShown : List Char} {total : Int}
    (hrest : ∀ {source shown : Mark}, MovedBy (moved + wider) source shown →
      MovedBy total (markedFrom isBreak12 (fun _ => 1) false source rest).finish
        (markedFrom isBreak12 (fun _ => 1) false shown restShown).finish) :
    MovedBy total (markedFrom isBreak12 (fun _ => 1) afterReturn source (front ++ rest)).finish
      (markedFrom isBreak12 (fun _ => 1) afterReturn shown (frontShown ++ restShown)).finish := by
  rw [Yaml.markedFrom_unbroken rfl hfront hsource, Yaml.markedFrom_unbroken rfl hshown hbreak]
  refine hrest ⟨hmoved.line, ?_⟩
  have hcolumn := hmoved.column
  simp only
  omega

/-- The place behind the pieces of a text is in the same line in the text that is read for
positions, moved by their drift. -/
theorem MovedBy.behind_pieces {pieces : List Piece}
    (hpieces : ∀ piece ∈ pieces, piece.WellFormed ∧ piece.Unbroken) {inner : List Char}
    (hinner : ∀ char ∈ inner, isBreak12 char = false)
    (hmoved : MovedBy moved source shown) (hreturn : afterReturn = true → moved = 0) :
    MovedBy (pieces.foldl Piece.move moved + inner.length)
      (markedFrom isBreak12 (fun _ => 1) afterReturn source (sourceOf pieces)).finish
      (markedFrom isBreak12 (fun _ => 1) afterReturn shown
        (pieces.flatMap Piece.forPositions ++ inner)).finish := by
  induction pieces generalizing moved source shown afterReturn with
  | nil =>
      -- behind the last piece only `inner` is left, all in one line
      by_cases hnil : inner = []
      · subst hnil
        simpa [sourceOf, markedFrom] using hmoved
      · rw [List.flatMap_nil, List.nil_append, ← List.append_nil inner,
          Yaml.markedFrom_unbroken rfl hnil hinner]
        refine ⟨hmoved.line, ?_⟩
        have hcolumn := hmoved.column
        simp only [sourceOf, List.flatMap_nil, markedFrom, List.foldl_nil, List.append_nil]
        omega
  | cons piece rest ih =>
      obtain ⟨⟨hformed, hunbroken⟩, hrest⟩ := List.forall_mem_cons.mp hpieces
      have hsourceOf : sourceOf (piece :: rest) = piece.source ++ sourceOf rest := by
        simp [sourceOf]
      rw [hsourceOf, List.flatMap_cons, List.append_assoc, List.foldl_cons]
      rcases hunbroken.copied_or with ⟨char, rfl⟩ | ⟨hmove, hsource⟩
      · by_cases hfeed : afterReturn = true ∧ char = '\n'
        · -- the break has been counted at the carriage return
          obtain ⟨rfl, rfl⟩ := hfeed
          obtain rfl := hreturn rfl
          simp only [Piece.source, Piece.forPositions, List.singleton_append]
          rw [Yaml.markedFrom_feed, Yaml.markedFrom_feed]
          exact ih hrest ⟨hmoved.line, hmoved.column⟩ fun _ => rfl
        · simp only [Piece.source, Piece.forPositions, List.singleton_append]
          rw [Yaml.markedFrom_cons hfeed, Yaml.markedFrom_cons hfeed]
          -- a break starts a new line in both texts, and nothing is moved there
          by_cases hbreak : isBreak12 char = true
          · refine ih hrest ?_ fun _ => if_pos hbreak
            rw [Piece.move, if_pos hbreak, Mark.behind, Mark.behind, if_pos hbreak, if_pos hbreak]
            exact ⟨congrArg (· + 1) hmoved.line, rfl⟩
          · refine ih hrest ?_ fun hboth => ?_
            · rw [Piece.move, if_neg hbreak, Mark.behind, Mark.behind, if_neg hbreak,
                if_neg hbreak]
              refine ⟨hmoved.line, ?_⟩
              have hcolumn := hmoved.column
              simp only [Mark.next]
              omega
            · exact absurd (Bool.and_eq_true_iff.mp hboth).1 hbreak
      · -- a rewritten piece has no break, so only its width counts
        rw [hmove]
        exact hmoved.behind_unbroken hformed.source_ne_nil (showing_forPositions.ne_nil hformed)
          hsource (isBreak12_of_mem_forPositions hsource) rfl
          fun hmoved => ih hrest hmoved fun hfalse => absurd hfalse Bool.false_ne_true

/-! ## Pieces of a text -/

/-- Whether a piece that is not copied holds a carriage return. -/
def Piece.holdsReturn : Piece → Bool
  | .copied _ => false
  | piece => piece.source.contains '\r'

theorem Piece.unbroken_of_not_mem {piece : Piece} (hfeed : '\n' ∉ piece.source)
    (hreturn : piece.holdsReturn = false) : piece.Unbroken := by
  cases piece with
  | copied char => trivial
  | _ =>
      intro char hchar
      have hnot : char ≠ '\n' ∧ char ≠ '\r' := by
        constructor
        · rintro rfl
          exact hfeed hchar
        · rintro rfl
          have hcontains := List.contains_iff_mem.mpr hchar
          exact absurd (hcontains.symm.trans hreturn) (by decide)
      simp [isBreak12, hnot]

/-- The pieces of a text have the form that the walk gives them, and hold no break. -/
theorem wellFormed_and_unbroken {text : String}
    (hreturn : ∀ piece ∈ piecesOf text, piece.holdsReturn = false) :
    ∀ piece ∈ piecesOf text, piece.WellFormed ∧ piece.Unbroken := by
  intro piece hpiece
  obtain ⟨line, hline, hmem⟩ := List.mem_flatMap.mp hpiece
  rcases List.mem_append.mp hmem with hmem | hmem
  · refine ⟨wellFormed_scanLines hline hmem, Piece.unbroken_of_not_mem ?_ (hreturn piece hpiece)⟩
    exact fun hfeed => feed_not_mem_pieces hline (List.mem_flatMap.mpr ⟨piece, hmem, hfeed⟩)
  · obtain ⟨char, -, rfl⟩ := List.mem_map.mp hmem
    exact ⟨trivial, trivial⟩

theorem toList_positionsText (text : String) :
    (positionsText text).toList = (piecesOf text).flatMap Piece.forPositions :=
  toList_shownText true text

/-- A character of the text that is read for positions is shown for a piece. -/
theorem exists_piece_of_shown {pieces : List Piece} {before after : List Char} {char : Char}
    (hshown : pieces.flatMap Piece.forPositions = before ++ char :: after) :
    ∃ front piece back inner behind, pieces = front ++ piece :: back ∧
      piece.forPositions = inner ++ char :: behind ∧
      before = front.flatMap Piece.forPositions ++ inner ∧
      after = behind ++ back.flatMap Piece.forPositions := by
  induction pieces generalizing before with
  | nil => simp at hshown
  | cons piece rest ih =>
      rw [List.flatMap_cons] at hshown
      rcases List.append_eq_append_iff.mp hshown with
        ⟨others, rfl, hothers⟩ | ⟨others, hpiece, hafter⟩
      · obtain ⟨front, inside, back, inner, behind, rfl, hinside, rfl, rfl⟩ := ih hothers
        exact ⟨piece :: front, inside, back, inner, behind, rfl, hinside, by simp, rfl⟩
      · cases others with
        | nil =>
            -- the character is the first one behind the piece
            rw [List.append_nil] at hpiece
            have hfirst : rest.flatMap Piece.forPositions = [] ++ char :: after := hafter.symm
            obtain ⟨front, inside, back, inner, behind, rfl, hinside, hnil, rfl⟩ := ih hfirst
            exact ⟨piece :: front, inside, back, inner, behind, rfl, hinside,
              by rw [← hpiece, List.flatMap_cons, List.append_assoc, ← hnil, List.append_nil], rfl⟩
        | cons first behind =>
            obtain ⟨rfl, rfl⟩ := List.cons.inj hafter
            exact ⟨[], piece, rest, before, behind, rfl, hpiece, rfl, rfl⟩

/-- Inside what is shown for a piece no break has come. -/
theorem isBreak12_of_mem_inner {piece : Piece} (hunbroken : piece.Unbroken)
    {inner behind : List Char} {char : Char}
    (hshown : piece.forPositions = inner ++ char :: behind) :
    ∀ other ∈ inner, isBreak12 other = false := by
  rcases hunbroken.copied_or with ⟨copied, rfl⟩ | ⟨-, hsource⟩
  · cases inner with
    | nil => exact fun other hother => absurd hother List.not_mem_nil
    | cons first inner =>
        have hlength := congrArg List.length hshown
        simp [Piece.forPositions] at hlength
  · intro other hother
    refine isBreak12_of_mem_forPositions hsource other ?_
    rw [hshown]
    exact List.mem_append_left _ hother

/-- What stands at some place of the text that is read for positions is shown for a piece.
It is in the line in which the piece is, moved to the right by the drift of what comes before
the piece. -/
theorem exists_piece_of_place {text : String}
    (hreturn : ∀ piece ∈ piecesOf text, piece.holdsReturn = false)
    {before after : List Char} {char : Char}
    (hshown : (positionsText text).toList = before ++ char :: after) :
    ∃ front piece back inner behind, piecesOf text = front ++ piece :: back ∧
      piece.forPositions = inner ++ char :: behind ∧
      after = behind ++ back.flatMap Piece.forPositions ∧
      MovedBy (drift front + inner.length) (markBehind (sourceOf front)) (markBehind before) := by
  rw [toList_positionsText] at hshown
  obtain ⟨front, piece, back, inner, behind, hpieces, hpiece, rfl, rfl⟩ :=
    exists_piece_of_shown hshown
  have hall := wellFormed_and_unbroken hreturn
  rw [hpieces] at hall
  obtain ⟨hfront, hback⟩ := List.forall_mem_append.mp hall
  refine ⟨front, piece, back, inner, behind, hpieces, hpiece, rfl, ?_⟩
  exact MovedBy.behind_pieces hfront
    (isBreak12_of_mem_inner (hback piece List.mem_cons_self).2 hpiece) ⟨rfl, by simp⟩
    fun hfalse => absurd hfalse Bool.false_ne_true

end RamlCheck.Include
