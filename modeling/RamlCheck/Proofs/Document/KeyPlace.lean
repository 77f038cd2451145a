import RamlCheck.Document.Entry
import RamlCheck.Proofs.Document.Loading
import RamlCheck.Proofs.Include.Drift
import RamlCheck.Proofs.Outline.Keys

/-!
# Where the keys of a document are put down

The place of a key is taken from the text that is read for positions.  It is in the line in
which the key begins in the source, but moved to the right by the drift of what comes in
front of it in that line (`place_of_key`): anchors and tags move nothing (`drift_eq_zero`),
references and aliases do (`widening_reference`, `widening_aliased`).  So a key behind a
reference is put down where it does not begin (`key_behind_reference`).

## Strategy

The key begins at its place in the text for positions (`startsAt_of_mem_keys`).  What stands
there is shown for some piece of the source, and the two texts are measured side by side up
to that piece (`exists_piece_of_place`).
-/

namespace RamlCheck

/-- The place behind some text. -/
def Place.behind (before : List Char) : Place :=
  .ofMark (Yaml.markBehind before)

namespace Document

open Include (Piece piecesOf sourceOf drift)
open Outline (Begins keysOfEntries)

/-- A key that begins in what is shown for a piece of a text, behind `inner`, and is put
down to the line of that piece.  Unless it is in quotes, its text stands there up to the end
of its first line. -/
structure PutDown (text : String) (key : Label) (front : List Piece) (piece : Piece)
    (back : List Piece) (inner behind : List Char) : Prop where
  pieces : piecesOf text = front ++ piece :: back
  shown : piece.forPositions = inner ++ behind
  begins : Begins key.text.toList (behind ++ back.flatMap Piece.forPositions)
  line : key.place.line = (Place.behind (sourceOf front)).line
  column : (key.place.column : Int) =
    (Place.behind (sourceOf front)).column + drift front + inner.length

variable {name directory content : String} {document : Document} {key : Label}

/-- A key is put down where its piece begins in the source if and only if nothing in front of
it in its line has moved it. -/
theorem PutDown.place_eq_iff {text : String} {front back : List Piece} {piece : Piece}
    {inner behind : List Char} (hput : PutDown text key front piece back inner behind) :
    key.place = Place.behind (sourceOf front) ↔ drift front + inner.length = 0 := by
  have hline := hput.line
  have hcolumn := hput.column
  constructor
  · intro hplace
    rw [hplace] at hcolumn
    omega
  · intro hmoved
    cases hplace : key.place with
    | mk line column =>
        rw [hplace] at hline hcolumn
        simp only at hline hcolumn
        have hsame : column = (Place.behind (sourceOf front)).column := by omega
        rw [hline, hsame]

/-- A key of a document, at any depth, is put down to the line in which it begins, moved to
the right by the drift of what comes in front of it in that line. -/
theorem place_of_key (hload : load name directory content = .ok document)
    (hreturn : ∀ piece ∈ piecesOf (withoutByteOrderMark content), piece.holdsReturn = false)
    (hkey : key ∈ keysOfEntries document.root) (htext : key.text ≠ "") :
    ∃ front piece back inner behind,
      PutDown (withoutByteOrderMark content) key front piece back inner behind := by
  obtain ⟨mark, hplace, before, char, after, hshown, rfl, hbegins⟩ :=
    Outline.startsAt_of_mem_keys (outline_of_load hload) hkey htext
  obtain ⟨front, piece, back, inner, behind, hpieces, hpiece, rfl, hmoved⟩ :=
    Include.exists_piece_of_place hreturn hshown
  have hline := hmoved.line
  have hcolumn := hmoved.column
  refine ⟨front, piece, back, inner, char :: behind, hpieces, hpiece, hbegins, ?_, ?_⟩
  · rw [hplace]
    exact congrArg (· + 1) hline
  · -- marks count from zero, places from one
    rw [hplace]
    simp only [Place.behind, Place.ofMark]
    omega

/-- A document with a key behind a reference in one line. -/
def crowded : String :=
  "#%RAML 1.0\ntitle: x\n/users: {get: !include get.raml, colour: 1}\n"

/-- The key of that document as it is put down. -/
def crowdedKey : Label :=
  { text := "colour", place := { line := 3, column := 36 } }

theorem load_crowded :
    ∃ document, load "api.raml" "" crowded = .ok document ∧
      crowdedKey ∈ keysOfEntries document.root := by
  have hany : (load "api.raml" "" crowded).toOption.any
      (fun document => (keysOfEntries document.root).contains crowdedKey) = true := by
    decide +kernel
  cases hload : load "api.raml" "" crowded with
  | error error => simp [hload, Except.toOption] at hany
  | ok document =>
      rw [hload] at hany
      exact ⟨document, rfl, List.contains_iff_mem.mp hany⟩

/-- It begins two columns further to the left than it is put down. -/
theorem place_of_key_crowded :
    ∃ document, load "api.raml" "" crowded = .ok document ∧
      crowdedKey ∈ keysOfEntries document.root ∧ crowdedKey.text ≠ "" ∧
      (∀ piece ∈ piecesOf (withoutByteOrderMark crowded), piece.holdsReturn = false) ∧
      ∃ front piece back inner behind,
        PutDown (withoutByteOrderMark crowded) crowdedKey front piece back inner behind := by
  obtain ⟨document, hload, hkey⟩ := load_crowded
  have htext : crowdedKey.text ≠ "" := by decide
  have hreturn : ∀ piece ∈ piecesOf (withoutByteOrderMark crowded),
      piece.holdsReturn = false := by
    decide +kernel
  exact ⟨document, hload, hkey, htext, hreturn, place_of_key hload hreturn hkey htext⟩

/-- A key behind a reference in its line is put down to column 36.  In the text it stands at
column 34, and nowhere else. -/
theorem key_behind_reference :
    (∃ document, load "api.raml" "" crowded = .ok document ∧
      crowdedKey ∈ keysOfEntries document.root) ∧
      ∀ before after, crowded.toList = before ++ crowdedKey.text.toList ++ after →
        Place.behind before = { line := 3, column := 34 } := by
  refine ⟨load_crowded, fun before after htext => ?_⟩
  have hall : ∀ count < 65,
      ((crowded.toList.drop count).take 6 = crowdedKey.text.toList →
        Place.behind (crowded.toList.take count) = { line := 3, column := 34 }) := by
    decide +kernel
  have hlength := congrArg List.length htext
  simp only [List.length_append] at hlength
  have hbefore : crowded.toList.take before.length = before := by
    rw [htext, List.append_assoc, List.take_left]
  have hkey : (crowded.toList.drop before.length).take 6 = crowdedKey.text.toList := by
    rw [htext, List.append_assoc, List.drop_left, show 6 = crowdedKey.text.toList.length by decide,
      List.take_left]
  rw [← hbefore]
  have hcount : before.length < 65 := by
    have htotal : crowded.toList.length = 64 := by decide
    omega
  exact hall before.length hcount hkey

end Document

end RamlCheck
