import RamlCheck.Proofs.Include.ByteAgreement
import RamlCheck.Yaml.Document

/-!
# Rewriting loses nothing

Rewriting a text takes spans from the bytes of its lines and puts other text in for
them.  `rewrite?` is this on bytes, where every cut may fail.  `lossless` says that no
cut does, that both rewritten texts come from the same spans, and that they keep
everything else: the lines, their endings, and the columns behind anchors and tags.

## Strategy

`scanLine?_eq` and `rewritten?_spans` reduce a line to its pieces.  That the lines of a
rewritten text are the rewritten lines is `cutLines_render`: nothing that is put in
brings a line feed, and nothing that is put in ends like a line.
-/

namespace RamlCheck.Include

/-- A text rewritten by the spans of its lines. -/
def rewrite? (properties : Bool) (text : String) : Option String := do
  let lines := Text.cutLines text.toList
  let found ← ByteWalk.scanLines? .start lines
  let shown ← (lines.zip found).mapM fun line => rewritten? properties line.1 line.2
  return String.ofList shown.flatten

/-- The two rewritten texts. -/
def shownText (properties : Bool) (text : String) : String :=
  if properties then positionsText text else valuesText text

theorem shownText_eq_render (properties : Bool) (text : String) :
    shownText properties text = render (shownFor properties) (scan text) := by
  cases properties <;> rfl

/-- The spans of a scanned line. -/
def ScannedLine.spans (line : ScannedLine) : List Span :=
  spansFrom 0 line.pieces

/-- Whether a piece has as many characters in the text that is read for positions. -/
def Piece.keepsWidth : Piece → Bool
  | .copied _ | .anchor _ | .tag _ => true
  | .reference _ _ | .aliased _ => false

/-- What rewriting keeps of a line. -/
structure Kept (raw : List Char) (line : ScannedLine) : Prop where
  /-- The pieces make up the line. -/
  source : sourceOf line.pieces = (Text.splitEnding raw).1
  /-- Each span is a stretch of the line between characters. -/
  fits : ∀ span ∈ line.spans, span.Fits (Text.splitEnding raw).1
  /-- The spans stand in order and do not overlap. -/
  ordered : line.spans.Pairwise fun first second => first.stop ≤ second.start
  /-- Other text is put in for the spans and nothing else. -/
  rewritten : ∀ properties,
    rewritten? properties raw line.spans = some (line.shownWith (shownFor properties))
  /-- The line ends as before. -/
  ending : ∀ properties, Text.splitEnding (line.shownWith (shownFor properties)) =
    (line.pieces.flatMap (shownFor properties), (Text.splitEnding raw).2)
  /-- Anchors and tags move nothing: two places of a line with neither a reference nor
  an alias between them are as far apart in the text that is read for positions. -/
  columns : ∀ front middle behind, line.pieces = front ++ middle ++ behind →
    (∀ piece ∈ middle, piece.keepsWidth = true) →
    (middle.flatMap Piece.forPositions).length = (sourceOf middle).length

/-! ## A line -/

theorem length_forPositions_of_keepsWidth {pieces : List Piece}
    (hpieces : ∀ piece ∈ pieces, piece.keepsWidth = true) :
    (pieces.flatMap Piece.forPositions).length = (sourceOf pieces).length := by
  induction pieces with
  | nil => rfl
  | cons piece rest ih =>
      have hrest := ih fun other hother => hpieces other (List.mem_cons_of_mem _ hother)
      have hpiece : piece.forPositions.length = piece.source.length := by
        cases piece with
        | copied char => rfl
        | anchor text => exact length_forPositions_anchor text
        | tag text => exact length_forPositions_tag text
        | reference gap target => exact absurd (hpieces _ List.mem_cons_self) Bool.false_ne_true
        | aliased text => exact absurd (hpieces _ List.mem_cons_self) Bool.false_ne_true
      rw [List.flatMap_cons, List.length_append, sourceOf_cons, List.length_append, hpiece, hrest]

theorem kept_of_wellFormed {raw : List Char} {line : ScannedLine}
    (hpieces : ∀ piece ∈ line.pieces, piece.WellFormed)
    (hsource : sourceOf line.pieces = (Text.splitEnding raw).1)
    (hending : line.ending = (Text.splitEnding raw).2) : Kept raw line where
  source := hsource
  fits := fun span hspan => by
    have hfits := fits_of_mem_spansFrom hpieces [] [] hspan
    rwa [List.nil_append, List.append_nil, hsource] at hfits
  ordered := pairwise_spansFrom 0 line.pieces
  rewritten := fun properties => by
    rw [ScannedLine.shownWith, hending]
    exact rewritten?_spans properties hsource
  ending := fun properties => by
    rw [(showing_shownFor properties).splitEnding_shownWith hpieces hsource hending, hending]
  columns := fun front middle behind hparts hmiddle => length_forPositions_of_keepsWidth hmiddle

/-! ## A text -/

theorem scanLines?_eq {state : State} (hstate : state.carry.IsQuote) (lines : List (List Char)) :
    ByteWalk.scanLines? state lines = some ((scanLines state lines).map ScannedLine.spans) := by
  induction lines generalizing state with
  | nil => rfl
  | cons line rest ih =>
      rw [ByteWalk.scanLines?, ByteWalk.scanLine?_eq hstate, scanLines_cons]
      have hrest := ih (isQuote_scanLine hstate (Text.splitEnding line).1)
      simp [hrest, ScannedLine.spans]

theorem isQuote_start : State.start.carry.IsQuote := trivial

theorem forall₂_kept (state : State) (lines : List (List Char)) :
    List.Forall₂ Kept lines (scanLines state lines) := by
  induction lines generalizing state with
  | nil => exact .nil
  | cons line rest ih =>
      rw [scanLines_cons]
      refine .cons (kept_of_wellFormed ?_ ?_ rfl) (ih _)
      · exact fun piece hpiece => wellFormed_scanLine hpiece
      · exact sourceOf_scanLine state (Text.splitEnding line).1

theorem mapM_rewritten? (properties : Bool) {lines : List (List Char)}
    {scanned : List ScannedLine} (hkept : List.Forall₂ Kept lines scanned) :
    ((lines.zip (scanned.map ScannedLine.spans)).mapM fun line =>
        rewritten? properties line.1 line.2) =
      some (scanned.map (·.shownWith (shownFor properties))) := by
  induction hkept with
  | nil => rfl
  | cons hline hrest ih => simp [hline.rewritten properties, ih]

theorem rewrite?_eq (properties : Bool) (text : String) :
    rewrite? properties text = some (shownText properties text) := by
  have hfound := scanLines?_eq isQuote_start (Text.cutLines text.toList)
  have hshown := mapM_rewritten? properties (forall₂_kept .start (Text.cutLines text.toList))
  have htext : shownText properties text =
      String.ofList ((scan text).map (·.shownWith (shownFor properties))).flatten := by
    rw [shownText_eq_render, ← toList_render, String.ofList_toList]
  rw [rewrite?, hfound, htext]
  simp only [Option.bind_eq_bind, Option.bind_some, hshown]
  rfl

/-- Rewriting loses nothing.  The walk over the bytes of any text and the cuts at the
spans that it finds all succeed; the two rewritten texts are what comes of the same
spans, they are cut into as many lines as the text, and each line keeps what `Kept`
says. -/
theorem lossless (text : String) :
    ByteWalk.scanLines? .start (Text.cutLines text.toList) =
        some ((scan text).map ScannedLine.spans) ∧
      List.Forall₂ Kept (Text.cutLines text.toList) (scan text) ∧
      ∀ properties,
        rewrite? properties text = some (shownText properties text) ∧
        Text.cutLines (shownText properties text).toList =
          (scan text).map (·.shownWith (shownFor properties)) := by
  refine ⟨scanLines?_eq isQuote_start _, forall₂_kept .start _, fun properties => ⟨?_, ?_⟩⟩
  · exact rewrite?_eq properties text
  · rw [shownText_eq_render]
    exact cutLines_render (showing_shownFor properties) text

/-- What is rewritten need not be a node.  A line that goes on with a plain scalar is
scanned as if a node started there, so the words of that scalar come to stand in
quotes, and the text loads into another value. -/
theorem reference_in_plainScalar :
    (Yaml.read "description: See\n  !include notes.md\n").toOption.any
        (·.same (.mapping [(.string "description", .string "See !include notes.md")])) = true ∧
      (Yaml.read (valuesText "description: See\n  !include notes.md\n")).toOption.any
        (·.same (.mapping [(.string "description", .string "See '!include notes.md'")])) =
          true := by
  constructor <;> decide +kernel

end RamlCheck.Include
