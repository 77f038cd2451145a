import RamlCheck.Proofs.Include.Settled
import RamlCheck.Proofs.Include.Spot

/-!
# Lines that are copied

The scan of a text goes line by line, and all that it carries from one line to the next is
its state (`scanLines_append`).  `Copies` says that it copies some lines, and from which
state to which.

Where lines leave the state as it was before the first line, the text falls apart: it is
rewritten part by part, and the references of what follows keep their columns
(`shownText_between`, `includesOf_between`).
-/

namespace RamlCheck.Include

/-- The text of some lines. -/
def textOf (lines : List (List Char)) : String :=
  String.ofList lines.flatten

/-- A line that is copied. -/
def ScannedLine.ofLine (line : List Char) : ScannedLine :=
  { pieces := (Text.splitEnding line).1.map .copied, ending := (Text.splitEnding line).2 }

/-- Lines that the scan copies, from a state in front of them to one behind them. -/
inductive Copies : State → List (List Char) → State → Prop
  | nil (state : State) : Copies state [] state
  | cons {state next last : State} {line : List Char} {lines : List (List Char)}
      (hline : scanLine state (Text.splitEnding line).1 =
        Scan.copyRest (Text.splitEnding line).1 next)
      (hlines : Copies next lines last) : Copies state (line :: lines) last

/-- The state behind some lines. -/
def stateBehind : State → List (List Char) → State
  | state, [] => state
  | state, line :: rest => stateBehind (scanLine state (Text.splitEnding line).1).after rest

variable {state next last : State} {line : List Char} {lines front rest : List (List Char)}

theorem scanLines_append (state : State) (front rest : List (List Char)) :
    scanLines state (front ++ rest) =
      scanLines state front ++ scanLines (stateBehind state front) rest := by
  induction front generalizing state with
  | nil => rfl
  | cons line front ih => rw [List.cons_append, scanLines_cons, ih]; rfl

theorem stateBehind_append (state : State) (front rest : List (List Char)) :
    stateBehind state (front ++ rest) = stateBehind (stateBehind state front) rest := by
  induction front generalizing state with
  | nil => rfl
  | cons line front ih => exact ih _

/-- Behind some lines stands what is made of the next one. -/
theorem getElem?_scanLines (state : State) (front : List (List Char)) (line : List Char)
    (rest : List (List Char)) :
    (scanLines state (front ++ line :: rest))[front.length]? =
      some { pieces := (scanLine (stateBehind state front) (Text.splitEnding line).1).pieces
             ending := (Text.splitEnding line).2 } := by
  have hlength : (scanLines state front).length = front.length :=
    (forall₂_scanLines state front).length_eq.symm
  rw [scanLines_append, scanLines_cons, ← hlength, List.getElem?_append_right (Nat.le_refl _),
    Nat.sub_self]
  rfl

namespace Copies

theorem scanLines_eq (hcopies : Copies state lines last) :
    scanLines state lines = lines.map .ofLine := by
  induction hcopies with
  | nil => rfl
  | cons hline _ ih => rw [scanLines_cons, hline, List.map_cons, ← ih]; rfl

theorem stateBehind_eq (hcopies : Copies state lines last) : stateBehind state lines = last := by
  induction hcopies with
  | nil => rfl
  | cons hline _ ih => rw [stateBehind, hline, ← ih]; rfl

theorem append (hfront : Copies state front next) (hrest : Copies next rest last) :
    Copies state (front ++ rest) last := by
  induction hfront with
  | nil => exact hrest
  | cons hline _ ih => exact .cons hline (ih hrest)

/-- Lines that each leave the state as it is are copied one after another. -/
theorem of_forall (hlines : ∀ line ∈ lines, scanLine state (Text.splitEnding line).1 =
    Scan.copyRest (Text.splitEnding line).1 state) : Copies state lines state := by
  induction lines with
  | nil => exact .nil state
  | cons line lines ih =>
      obtain ⟨hline, hrest⟩ := List.forall_mem_cons.mp hlines
      exact .cons hline (ih hrest)

end Copies

/-! ## What copied lines show -/

theorem flatMap_shownFor_copied (properties : Bool) (chars : List Char) :
    (chars.map Piece.copied).flatMap (shownFor properties) = chars := by
  cases properties
  · exact flatMap_forValues_copied chars
  · exact flatMap_forPositions_copied chars

@[simp] theorem shownWith_ofLine (properties : Bool) (line : List Char) :
    (ScannedLine.ofLine line).shownWith (shownFor properties) = line := by
  rw [ScannedLine.shownWith, ScannedLine.ofLine, flatMap_shownFor_copied,
    (Text.splitEnding_spec line).1]

theorem map_shownWith_ofLine (properties : Bool) (lines : List (List Char)) :
    (lines.map ScannedLine.ofLine).map (·.shownWith (shownFor properties)) = lines := by
  rw [List.map_map]
  exact (List.map_congr_left fun line _ => shownWith_ofLine properties line).trans
    (List.map_id lines)

theorem includesOfLine_copied (line column : Nat) (chars : List Char) (rest : List Piece) :
    includesOfLine line column (chars.map .copied ++ rest) =
      includesOfLine line (column + chars.length) rest := by
  induction chars generalizing column with
  | nil => rfl
  | cons char chars ih =>
      rw [List.map_cons, List.cons_append, List.length_cons, Nat.add_comm chars.length,
        ← Nat.add_assoc]
      exact ih (column + 1)

theorem includesOfLines_append (line : Nat) (front rest : List ScannedLine) :
    includesOfLines line (front ++ rest) =
      includesOfLines line front ++ includesOfLines (line + front.length) rest := by
  induction front generalizing line with
  | nil => rfl
  | cons scanned front ih =>
      rw [List.cons_append, includesOfLines, includesOfLines, ih, List.append_assoc,
        List.length_cons, Nat.add_assoc, Nat.add_comm 1]

theorem includesOfLines_ofLine (number : Nat) (lines : List (List Char)) :
    includesOfLines number (lines.map .ofLine) = [] := by
  induction lines generalizing number with
  | nil => rfl
  | cons line lines ih =>
      have hline := includesOfLine_copied number 1 (Text.splitEnding line).1 []
      rw [List.append_nil] at hline
      rw [List.map_cons, includesOfLines, ih, List.append_nil]
      exact hline

/-- A reference some lines further down. -/
def below (count : Nat) (reference : Include) : Include :=
  { reference with line := reference.line + count }

theorem includesOfLine_below (line column count : Nat) (pieces : List Piece) :
    includesOfLine (line + count) column pieces =
      (includesOfLine line column pieces).map (below count) := by
  induction pieces generalizing column with
  | nil => rfl
  | cons piece rest ih =>
      have hrest := ih (column + piece.source.length)
      cases piece with
      | reference gap target => exact congrArg (_ :: ·) hrest
      | _ => exact hrest

theorem includesOfLines_below (line count : Nat) (lines : List ScannedLine) :
    includesOfLines (line + count) lines = (includesOfLines line lines).map (below count) := by
  induction lines generalizing line with
  | nil => rfl
  | cons scanned rest ih =>
      rw [includesOfLines, includesOfLines, List.map_append, includesOfLine_below,
        Nat.add_right_comm, ih]

/-! ## Texts that fall apart -/

theorem scan_textOf (hcut : Text.IsCut lines) : scan (textOf lines) = scanLines .start lines := by
  rw [scan, textOf, String.toList_ofList, Text.cutLines_flatten hcut]

theorem shownText_textOf (properties : Bool) (hcut : Text.IsCut lines) :
    (shownText properties (textOf lines)).toList =
      ((scanLines .start lines).map (·.shownWith (shownFor properties))).flatten := by
  rw [shownText_eq_render, toList_render, scan_textOf hcut]

/-- A text that is copied as a whole has no references. -/
theorem unchanged_of_copies (hcut : Text.IsCut lines) (hcopies : Copies .start lines last) :
    (∀ properties, shownText properties (textOf lines) = textOf lines) ∧
      includesOf (textOf lines) = [] := by
  constructor
  · intro properties
    refine String.toList_injective ?_
    rw [shownText_textOf properties hcut, hcopies.scanLines_eq, map_shownWith_ofLine, textOf,
      String.toList_ofList]
  · rw [includesOf, scan_textOf hcut, hcopies.scanLines_eq, includesOfLines_ofLine]

variable {before later : List (List Char)}

/-- Between lines that leave nothing open and others, the scan of a text starts anew. -/
theorem scan_append (hcut : Text.IsCut (before ++ later))
    (hbefore : stateBehind .start before = .start) :
    scan (textOf (before ++ later)) = scan (textOf before) ++ scan (textOf later) := by
  rw [scan_textOf hcut, scan_textOf hcut.of_append_left, scan_textOf hcut.of_append_right,
    scanLines_append, hbefore]

theorem shownText_append (properties : Bool) (hcut : Text.IsCut (before ++ later))
    (hbefore : stateBehind .start before = .start) :
    shownText properties (textOf (before ++ later)) =
      shownText properties (textOf before) ++ shownText properties (textOf later) := by
  refine String.toList_injective ?_
  rw [String.toList_append]
  simp only [shownText_eq_render, toList_render, scan_append hcut hbefore, List.map_append,
    List.flatten_append]

theorem includesOf_append (hcut : Text.IsCut (before ++ later))
    (hbefore : stateBehind .start before = .start) :
    includesOf (textOf (before ++ later)) =
      includesOf (textOf before) ++ (includesOf (textOf later)).map (below before.length) := by
  have hlength : (scan (textOf before)).length = before.length := by
    rw [scan_textOf hcut.of_append_left]
    exact (forall₂_scanLines .start before).length_eq.symm
  rw [includesOf, scan_append hcut hbefore, includesOfLines_append, hlength,
    includesOfLines_below]
  rfl

/-- Lines that are copied and leave nothing open stand between the rewritten texts of what
is in front of them and of what is behind. -/
theorem shownText_between (properties : Bool) {middle : List (List Char)}
    (hcut : Text.IsCut (before ++ middle ++ later)) (hbefore : stateBehind .start before = .start)
    (hmiddle : Copies .start middle .start) :
    shownText properties (textOf (before ++ middle ++ later)) =
      shownText properties (textOf before) ++ textOf middle ++
        shownText properties (textOf later) := by
  have hbehind : stateBehind .start (before ++ middle) = .start := by
    rw [stateBehind_append, hbefore, hmiddle.stateBehind_eq]
  rw [shownText_append properties hcut hbehind,
    shownText_append properties hcut.of_append_left hbefore,
    (unchanged_of_copies hcut.of_append_left.of_append_right hmiddle).1]

/-- Such lines have no references, and those behind them keep their columns. -/
theorem includesOf_between {middle : List (List Char)}
    (hcut : Text.IsCut (before ++ middle ++ later)) (hbefore : stateBehind .start before = .start)
    (hmiddle : Copies .start middle .start) :
    includesOf (textOf (before ++ middle ++ later)) =
      includesOf (textOf before) ++
        (includesOf (textOf later)).map (below (before.length + middle.length)) := by
  have hbehind : stateBehind .start (before ++ middle) = .start := by
    rw [stateBehind_append, hbefore, hmiddle.stateBehind_eq]
  rw [includesOf_append hcut hbehind, includesOf_append hcut.of_append_left hbefore,
    (unchanged_of_copies hcut.of_append_left.of_append_right hmiddle).2, List.map_nil,
    List.append_nil, List.length_append]

end RamlCheck.Include
