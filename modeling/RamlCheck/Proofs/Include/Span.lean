import RamlCheck.Proofs.Include.Pieces
import RamlCheck.Proofs.Text.Slice

/-!
# Pieces as spans of bytes

The pieces of a line that are not merely copied are *spans*: stretches of the line
between two places counted in bytes.  A line can be rewritten from its spans alone,
by cutting it at these places and putting other text in for some spans
(`rewritten?`), and the cuts may fail.

`rewritten?_spans` says that on the spans of a line's pieces no cut fails and the
outcome is what is shown for the pieces.
-/

namespace RamlCheck.Include

/-- What a span of a line is; a reference knows where its target lies. -/
inductive SpanKind
  | reference (start stop : Nat)
  | anchor
  | aliased
  | tag
  deriving DecidableEq, Repr

/-- A stretch of a line between two places counted in bytes. -/
structure Span where
  kind : SpanKind
  start : Nat
  stop : Nat
  deriving DecidableEq, Repr

/-- The span of a piece that starts at some place, unless it is merely copied. -/
def Piece.span? (start : Nat) : Piece → Option Span
  | .copied _ => none
  | .reference gap target =>
      let targetStart := start + Text.size (includeTag ++ gap)
      let stop := targetStart + Text.size target
      some { kind := .reference targetStart stop, start, stop }
  | .anchor text => some { kind := .anchor, start, stop := start + Text.size text }
  | .aliased text => some { kind := .aliased, start, stop := start + Text.size text }
  | .tag text => some { kind := .tag, start, stop := start + Text.size text }

/-- The spans of pieces, the first of which starts at some place. -/
def spansFrom : Nat → List Piece → List Span
  | _, [] => []
  | start, piece :: rest =>
      (piece.span? start).toList ++ spansFrom (start + Text.size piece.source) rest

@[simp] theorem spansFrom_nil (start : Nat) : spansFrom start [] = [] := rfl

theorem spansFrom_cons (start : Nat) (piece : Piece) (rest : List Piece) :
    spansFrom start (piece :: rest) =
      (piece.span? start).toList ++ spansFrom (start + Text.size piece.source) rest := rfl

theorem spansFrom_append (start : Nat) (front rest : List Piece) :
    spansFrom start (front ++ rest) =
      spansFrom start front ++ spansFrom (start + Text.size (sourceOf front)) rest := by
  induction front generalizing start with
  | nil => simp
  | cons piece front ih => simp [spansFrom_cons, ih, Nat.add_assoc]

@[simp] theorem spansFrom_copied (start : Nat) (chars : List Char) :
    spansFrom start (chars.map Piece.copied) = [] := by
  induction chars generalizing start with
  | nil => rfl
  | cons char rest ih => simp [spansFrom_cons, Piece.span?, ih]

/-! ## Where spans lie -/

/-- Whether a span is a stretch of a line: not empty, inside the line and cut
between characters, with the target of a reference at its end. -/
structure Span.Fits (line : List Char) (span : Span) : Prop where
  start_lt_stop : span.start < span.stop
  stop_le : span.stop ≤ Text.size line
  front : (Text.slice? line 0 span.start).isSome = true
  slice : (Text.slice? line span.start span.stop).isSome = true
  target : ∀ start stop, span.kind = .reference start stop →
    span.start < start ∧ start < stop ∧ stop = span.stop ∧
      (Text.slice? line start stop).isSome = true

theorem Piece.span?_bounds {piece : Piece} {start : Nat} {span : Span}
    (hspan : piece.span? start = some span) :
    span.start = start ∧ span.stop = start + Text.size piece.source := by
  cases piece with
  | copied char => simp [Piece.span?] at hspan
  | reference gap target => cases hspan; simp [Piece.source, Nat.add_assoc]
  | anchor text => cases hspan; exact ⟨rfl, rfl⟩
  | aliased text => cases hspan; exact ⟨rfl, rfl⟩
  | tag text => cases hspan; exact ⟨rfl, rfl⟩

theorem start_le_of_mem_spansFrom {start : Nat} {pieces : List Piece} {span : Span}
    (hspan : span ∈ spansFrom start pieces) : start ≤ span.start := by
  induction pieces generalizing start with
  | nil => simp at hspan
  | cons piece rest ih =>
      rw [spansFrom_cons] at hspan
      rcases List.mem_append.mp hspan with hspan | hspan
      · exact Nat.le_of_eq (Piece.span?_bounds (Option.mem_toList.mp hspan)).1.symm
      · exact Nat.le_trans (Nat.le_add_right _ _) (ih hspan)

/-- The spans of pieces stand in order and do not overlap. -/
theorem pairwise_spansFrom (start : Nat) (pieces : List Piece) :
    (spansFrom start pieces).Pairwise fun first second => first.stop ≤ second.start := by
  induction pieces generalizing start with
  | nil => exact .nil
  | cons piece rest ih =>
      rw [spansFrom_cons, List.pairwise_append]
      refine ⟨?_, ih _, fun first hfirst second hsecond => ?_⟩
      · cases piece.span? start <;> simp
      · rw [(Piece.span?_bounds (Option.mem_toList.mp hfirst)).2]
        exact start_le_of_mem_spansFrom hsecond

theorem Piece.WellFormed.fits {piece : Piece} (hpiece : piece.WellFormed) {span : Span}
    (before after : List Char) (hspan : piece.span? (Text.size before) = some span) :
    span.Fits (before ++ piece.source ++ after) := by
  obtain ⟨hstart, hstop⟩ := Piece.span?_bounds hspan
  have hsize := Text.size_pos hpiece.source_ne_nil
  refine ⟨by omega, ?_, ?_, ?_, fun start stop hkind => ?_⟩
  · rw [hstop, List.append_assoc, Text.size_append, Text.size_append]
    omega
  · have hfront := Text.slice?_append [] before (piece.source ++ after)
    rw [List.nil_append, Text.size_nil, Nat.zero_add] at hfront
    rw [hstart, List.append_assoc, hfront]
    rfl
  · rw [hstart, hstop, Text.slice?_append]
    rfl
  · cases piece with
    | reference gap target =>
        cases hspan
        cases hkind
        -- the target is a span inside of the span of its reference
        have htarget := Text.size_pos hpiece.2.2.1
        have htag : 0 < Text.size includeTag := by decide
        refine ⟨?_, by omega, rfl, ?_⟩
        · show Text.size before < Text.size before + Text.size (includeTag ++ gap)
          rw [Text.size_append]
          omega
        · have hslice := Text.slice?_append (before ++ (includeTag ++ gap)) target after
          rw [Text.size_append] at hslice
          rw [show before ++ (Piece.reference gap target).source ++ after =
            before ++ (includeTag ++ gap) ++ target ++ after by simp [Piece.source], hslice]
          rfl
    | copied char => simp [Piece.span?] at hspan
    | anchor text => cases hspan; cases hkind
    | aliased text => cases hspan; cases hkind
    | tag text => cases hspan; cases hkind

theorem fits_of_mem_spansFrom {pieces : List Piece}
    (hpieces : ∀ piece ∈ pieces, piece.WellFormed) (before after : List Char) {span : Span}
    (hspan : span ∈ spansFrom (Text.size before) pieces) :
    span.Fits (before ++ sourceOf pieces ++ after) := by
  induction pieces generalizing before with
  | nil => simp at hspan
  | cons piece rest ih =>
      rw [spansFrom_cons] at hspan
      rcases List.mem_append.mp hspan with hspan | hspan
      · have hfits := (hpieces piece (by simp)).fits before (sourceOf rest ++ after)
          (Option.mem_toList.mp hspan)
        simpa using hfits
      · rw [← Text.size_append] at hspan
        have hfits := ih (fun other hother => hpieces other (List.mem_cons_of_mem _ hother))
          (before ++ piece.source) hspan
        simpa using hfits

/-! ## Rewriting by spans -/

/-- What is put in for a span of a line, read off the line; nothing leaves the span
as it is.  Anchors, aliases and tags give way only if `properties` says so.  The
whole fails where a cut does. -/
def Span.replacement? (properties : Bool) (content : List Char) (span : Span) :
    Option (Option (List Char)) :=
  match span.kind with
  | .reference start stop =>
      (Text.slice? content start stop).map fun target =>
        some (singleQuoted (includeMark ++ target))
  | .aliased =>
      if properties then
        (Text.slice? content span.start span.stop).map fun text => some (singleQuoted text)
      else some none
  | .anchor | .tag =>
      if properties then
        (Text.slice? content span.start span.stop).map fun text =>
          some (List.replicate text.length ' ')
      else some none

/-- A line from some place on, with other text put in for its spans.  `raw` is the
line with its ending, `content` without; either may be cut. -/
def rewrittenFrom? (properties : Bool) (raw content : List Char) : (last : Nat) → List Span →
    Option (List Char)
  | last, [] => Text.slice? raw last (Text.size raw)
  | last, span :: rest =>
      match span.replacement? properties content with
      | none => none
      | some none => rewrittenFrom? properties raw content last rest
      | some (some text) => do
          let front ← Text.slice? content last span.start
          let behind ← rewrittenFrom? properties raw content span.stop rest
          return front ++ text ++ behind

/-- A line with other text put in for its spans. -/
def rewritten? (properties : Bool) (raw : List Char) (spans : List Span) : Option (List Char) :=
  rewrittenFrom? properties raw (Text.splitEnding raw).1 0 spans

/-- How pieces are shown in the two rewritten texts. -/
def shownFor (properties : Bool) : Piece → List Char :=
  if properties then Piece.forPositions else Piece.forValues

theorem showing_shownFor (properties : Bool) : Showing (shownFor properties) := by
  cases properties
  · exact showing_forValues
  · exact showing_forPositions

/-- What is put in for the span of a piece is what is shown for the piece; where
nothing is put in, the piece is shown as it was read. -/
theorem replacement?_of_span? (properties : Bool) {piece : Piece} {span : Span}
    (before after : List Char) (hspan : piece.span? (Text.size before) = some span) :
    span.replacement? properties (before ++ piece.source ++ after) =
        some (some (shownFor properties piece)) ∨
      span.replacement? properties (before ++ piece.source ++ after) = some none ∧
        shownFor properties piece = piece.source := by
  have hslice := Text.slice?_append before piece.source after
  cases piece with
  | copied char => simp [Piece.span?] at hspan
  | reference gap target =>
      cases hspan
      left
      -- the target is cut out of the line once more, behind the tag and its gap
      have htarget := Text.slice?_append (before ++ (includeTag ++ gap)) target after
      rw [Text.size_append] at htarget
      rw [show before ++ (Piece.reference gap target).source ++ after =
        before ++ (includeTag ++ gap) ++ target ++ after by simp [Piece.source]]
      simp only [Span.replacement?, htarget, Option.map_some]
      cases properties <;> rfl
  | anchor text =>
      cases hspan
      cases properties with
      | false => exact .inr ⟨rfl, rfl⟩
      | true => exact .inl (congrArg (Option.map _) hslice)
  | aliased text =>
      cases hspan
      cases properties with
      | false => exact .inr ⟨rfl, rfl⟩
      | true => exact .inl (congrArg (Option.map _) hslice)
  | tag text =>
      cases hspan
      cases properties with
      | false => exact .inr ⟨rfl, rfl⟩
      | true => exact .inl (congrArg (Option.map _) hslice)

theorem shownFor_of_span?_eq_none {properties : Bool} {piece : Piece} {start : Nat}
    (hspan : piece.span? start = none) : shownFor properties piece = piece.source := by
  cases piece with
  | copied char => cases properties <;> rfl
  | reference gap target => simp [Piece.span?] at hspan
  | anchor text => simp [Piece.span?] at hspan
  | aliased text => simp [Piece.span?] at hspan
  | tag text => simp [Piece.span?] at hspan

/-- Rewriting from a place `front` on, where `pending` was read since but not copied
yet. -/
theorem rewrittenFrom?_spansFrom (properties : Bool) (front pending ending : List Char)
    (pieces : List Piece) :
    rewrittenFrom? properties (front ++ pending ++ sourceOf pieces ++ ending)
        (front ++ pending ++ sourceOf pieces) (Text.size front)
        (spansFrom (Text.size (front ++ pending)) pieces) =
      some (pending ++ pieces.flatMap (shownFor properties) ++ ending) := by
  induction pieces generalizing front pending with
  | nil =>
      -- what is pending is copied with the ending
      have hslice := Text.slice?_append front (pending ++ ending) []
      rw [← Text.size_append, List.append_nil] at hslice
      simpa [rewrittenFrom?] using hslice
  | cons piece rest ih =>
      have hkeep := ih front (pending ++ piece.source)
      have hcut := ih (front ++ pending ++ piece.source) []
      rw [spansFrom_cons, ← Text.size_append]
      cases hspan : piece.span? (Text.size (front ++ pending)) with
      | none =>
          -- a piece without a span is pending too
          rw [List.flatMap_cons, shownFor_of_span?_eq_none hspan]
          simpa using hkeep
      | some span =>
          obtain ⟨hstart, hstop⟩ := Piece.span?_bounds hspan
          rw [← Text.size_append] at hstop
          rw [Option.toList_some, List.singleton_append, rewrittenFrom?, sourceOf_cons,
            ← List.append_assoc (front ++ pending)]
          rcases replacement?_of_span? properties (front ++ pending) (sourceOf rest) hspan with
            hput | ⟨hput, hsame⟩
          · -- what is pending is cut out, and the next cut starts behind the span
            have hfront := Text.slice?_append front pending (piece.source ++ sourceOf rest)
            rw [← Text.size_append, ← List.append_assoc] at hfront
            rw [List.append_nil, List.nil_append] at hcut
            simp only [hput, hstart, hstop, hfront, hcut, Option.bind_eq_bind, Option.bind_some]
            simp
          · -- nothing is put in, so the source of the piece is pending
            rw [hput, List.flatMap_cons, hsame]
            simpa using hkeep

/-- On the spans of a line's pieces no cut fails, and the outcome is what is shown
for the pieces. -/
theorem rewritten?_spans (properties : Bool) {raw : List Char} {pieces : List Piece}
    (hsource : sourceOf pieces = (Text.splitEnding raw).1) :
    rewritten? properties raw (spansFrom 0 pieces) =
      some (pieces.flatMap (shownFor properties) ++ (Text.splitEnding raw).2) := by
  have hrewritten := rewrittenFrom?_spansFrom properties [] [] (Text.splitEnding raw).2 pieces
  simp only [List.nil_append, Text.size_nil, hsource, (Text.splitEnding_spec raw).1]
    at hrewritten
  exact hrewritten

end RamlCheck.Include
