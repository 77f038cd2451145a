import RamlCheck.Proofs.Include.BlockSibling

/-!
# Lines that go on with a plain scalar

A plain scalar may go on over the lines below it, and all that these lines hold is its
text.  The scan carries nothing of a plain scalar from one line to the next, so a text is
rewritten as if a node started in the line below: `behind_plain_scalar` says so, and what
comes of it.  Lines that begin like plain text are copied.  A line that begins with an
indicator is not, or it leaves something open for the next key: `Misread` says what comes
of each.

`continuation_misread` has a text in which a reference is found where there is none, and one
in which a reference is lost.
-/

namespace RamlCheck.Include

variable {indent depth : Nat} {key word content gaps rest : List Char} {line first : List Char}
  {before front lines others later : List (List Char)}

/-- A line that holds only gaps, or gaps and plain text. -/
def GoesOn (content : List Char) : Prop :=
  ∃ gaps text, content = gaps ++ text ∧ (∀ char ∈ gaps, isGap char = true) ∧
    (text = [] ∨ IsPlain text [])

/-- What the scan makes of a line of a text that begins with an indicator, if the lines in
front of it leave nothing open. -/
structure Misread (text : String) (front : List (List Char)) (line : List Char) : Prop where
  /-- A node property, an alias or a reference does not stay in the text for positions. -/
  property : ∀ gaps char rest, (∀ gap ∈ gaps, isGap gap = true) →
    (Text.splitEnding line).1 = gaps ++ char :: rest → char = '&' ∨ char = '*' ∨ char = '!' →
    (Text.cutLines (positionsText text).toList)[front.length]? ≠ some line
  /-- A reference is recorded. -/
  reference : ∀ gaps gap target after, (∀ char ∈ gaps, isGap char = true) →
    (Text.splitEnding line).1 = gaps ++ (includeTag ++ gap ++ target ++ after) →
    ReferenceAt gap target after →
    { target := String.ofList target, line := front.length + 1, column := gaps.length + 1 } ∈
      includesOf text
  /-- A quote that is not closed in the line stays open behind it. -/
  quote : ∀ gaps char rest, (∀ gap ∈ gaps, isGap gap = true) →
    (Text.splitEnding line).1 = gaps ++ char :: rest → char = '\'' ∨ char = '"' →
    closeQuote char false rest = none →
    stateBehind .start (front ++ [line]) = { carry := .quoted char, depth := 0 }
  /-- A header of a block scalar leaves a block scalar open. -/
  block : ∀ gaps char rest, (∀ gap ∈ gaps, isGap gap = true) →
    (Text.splitEnding line).1 = gaps ++ char :: rest → char = '|' ∨ char = '>' →
    isBlockHeader rest = true →
    stateBehind .start (front ++ [line]) =
      { carry := .block (leadingSpaces (Text.splitEnding line).1), depth := 0 }
  /-- A bracket that is not closed in the line stays open behind it. -/
  bracket : ∀ gaps char rest, (∀ gap ∈ gaps, isGap gap = true) →
    (Text.splitEnding line).1 = gaps ++ char :: rest → char = '[' ∨ char = '\x7b' →
    ']' ∉ rest → '\x7d' ∉ rest → 0 < (stateBehind .start (front ++ [line])).depth

/-! ## Lines that are copied -/

theorem scanLine_start (content : List Char) :
    scanLine .start content = walk (leadingSpaces content) (.fresh 0) content :=
  scanLine_nothing 0 content

theorem copyRest_prepend (front content : List Char) (state : State) :
    (Scan.copyRest content state).prepend (front.map .copied) =
      Scan.copyRest (front ++ content) state := by
  rw [Scan.prepend, Scan.copyRest, ← List.map_append]
  rfl

/-- Plain text up to the end of a line is copied. -/
theorem walk_plainLine (hplain : IsPlain content []) :
    walk indent (.fresh 0) content = Scan.copyRest content .start := by
  obtain ⟨afterGap, hwalk⟩ := walk_isPlain indent hplain
  have hend : walk indent { nodeStart := false, afterGap, depth := 0 } [] =
      Scan.copyRest [] .start := rfl
  rwa [List.append_nil, hend, copyRest_prepend, List.append_nil] at hwalk

/-- An entry with a plain scalar leaves nothing open. -/
theorem scanLine_entryLine (hkey : IsKey key) (hword : IsPlain word []) :
    scanLine .start (entryLine indent key word) =
      Scan.copyRest (entryLine indent key word) .start := by
  rw [scanLine_start, walk_entryLine _ hkey, walk_plainLine hword, copyRest_prepend, entryLine]
  simp

/-- Plain text at the start of a line leaves nothing open. -/
theorem scanLine_goesOn (hgoes : GoesOn content) :
    scanLine .start content = Scan.copyRest content .start := by
  obtain ⟨gaps, text, rfl, hgaps, htext⟩ := hgoes
  have hwalk : walk (leadingSpaces (gaps ++ text)) (.fresh 0) text = Scan.copyRest text .start := by
    rcases htext with rfl | hplain
    · rfl
    · exact walk_plainLine hplain
  rw [scanLine_start, walk_gaps hgaps, hwalk, copyRest_prepend]

/-! ## Lines that are misread -/

theorem scan_at (hcut : Text.IsCut (front ++ line :: others))
    (hfront : stateBehind .start front = .start) :
    (scan (textOf (front ++ line :: others)))[front.length]? =
      some { pieces := (scanLine .start (Text.splitEnding line).1).pieces
             ending := (Text.splitEnding line).2 } := by
  rw [scan_textOf hcut, getElem?_scanLines, hfront]

/-- The piece that the indicator of a node property begins does not show that indicator. -/
theorem exists_piece_of_property (indent depth : Nat) {char : Char}
    (hchar : char = '&' ∨ char = '*' ∨ char = '!') (rest : List Char) :
    ∃ piece next after, step indent (.fresh depth) char rest = .take [piece] next after ∧
      ∃ other shown, piece.forPositions = other :: shown ∧ other ≠ char := by
  have hblank : ' ' ≠ char ∧ '\'' ≠ char := by rcases hchar with rfl | rfl | rfl <;> decide
  have hadvance := advance_step indent (.fresh depth) char rest
  generalize step indent (.fresh depth) char rest = taken at hadvance ⊢
  -- a property is blanked out, an alias and a reference are put in quotes
  cases hadvance with
  | anchor => exact ⟨_, _, _, rfl, ' ', _, rfl, hblank.1⟩
  | aliased => exact ⟨_, _, _, rfl, '\'', _, rfl, hblank.2⟩
  | reference => exact ⟨_, _, _, rfl, '\'', _, rfl, hblank.2⟩
  | tag => exact ⟨_, _, _, rfl, ' ', _, rfl, hblank.1⟩
  | gap hgap => rcases hchar with rfl | rfl | rfl <;> contradiction
  | openQuote _ hquote | quoted _ hquote =>
      rcases hquote with rfl | rfl <;> exact absurd hchar (by decide)
  | bracket _ hbracket => rcases hbracket with rfl | rfl <;> exact absurd hchar (by decide)
  | block _ hblock => rcases hblock with rfl | rfl <;> exact absurd hchar (by decide)
  | comment | dash => exact absurd hchar (by decide)
  | plain _ _ hplain =>
      obtain ⟨hamp, hstar, hbang⟩ := (hplain rfl).not_property
      rcases hchar with rfl | rfl | rfl <;> contradiction

/-- Where a line begins with a node property, the text for positions has another line. -/
theorem changed_of_property (hcut : Text.IsCut (front ++ line :: others))
    (hfront : stateBehind .start front = .start) (hgaps : ∀ gap ∈ gaps, isGap gap = true)
    {char : Char} (hline : (Text.splitEnding line).1 = gaps ++ char :: rest)
    (hchar : char = '&' ∨ char = '*' ∨ char = '!') :
    (Text.cutLines (positionsText (textOf (front ++ line :: others))).toList)[front.length]? ≠
      some line := by
  obtain ⟨piece, next, after, hstep, other, shown, hshown, hother⟩ :=
    exists_piece_of_property (leadingSpaces (gaps ++ char :: rest)) 0 hchar rest
  have hsource : gaps ++ char :: rest ++ (Text.splitEnding line).2 = line := by
    rw [← hline, (Text.splitEnding_spec line).1]
  rw [positionsText, cutLines_render showing_forPositions, List.getElem?_map,
    scan_at hcut hfront, hline, scanLine_start, walk_gaps hgaps, walk_take hstep,
    ← prepend_append]
  -- the line would have the same character at the same place
  intro hsame
  have hshowing : gaps ++ other :: (shown ++
      (walk (leadingSpaces (gaps ++ char :: rest)) next after).pieces.flatMap Piece.forPositions ++
      (Text.splitEnding line).2) = line := by
    simpa [ScannedLine.shownWith, Scan.prepend, hshown, List.map_map] using hsame
  rw [← hshowing, List.append_assoc, List.append_cancel_left_eq, List.cons_append] at hsource
  exact hother (List.cons.inj hsource).1.symm

/-- A reference behind gaps is recorded with its line and its column. -/
theorem recorded_of_reference (hcut : Text.IsCut (front ++ line :: others))
    (hfront : stateBehind .start front = .start) (hgaps : ∀ gap ∈ gaps, isGap gap = true)
    {gap target after : List Char}
    (hline : (Text.splitEnding line).1 = gaps ++ (includeTag ++ gap ++ target ++ after))
    (hreference : ReferenceAt gap target after) :
    { target := String.ofList target, line := front.length + 1, column := gaps.length + 1 } ∈
      includesOf (textOf (front ++ line :: others)) := by
  obtain ⟨tail, htag⟩ : ∃ tail, includeTag = '!' :: tail := ⟨_, rfl⟩
  have htext : '!' :: (tail ++ gap ++ target ++ after) = includeTag ++ gap ++ target ++ after := by
    rw [htag]; rfl
  have hstep : step (leadingSpaces (Text.splitEnding line).1) (.fresh 0) '!'
      (tail ++ gap ++ target ++ after) =
        .take [.reference gap target] (Stance.fresh 0).behind after :=
    (Advance.reference rfl htext hreference).step_eq
  have hscan : scanLine .start (Text.splitEnding line).1 =
      (walk (leadingSpaces (Text.splitEnding line).1) (Stance.fresh 0).behind after).prepend
        (gaps.map .copied ++ [.reference gap target]) := by
    rw [scanLine_start]
    generalize leadingSpaces (Text.splitEnding line).1 = width at hstep ⊢
    rw [hline, walk_gaps hgaps, ← htext, walk_take hstep, ← prepend_append]
  -- as many lines stand in front of the reference in the scan as in the text
  have hlength : (scanLines .start front).length = front.length :=
    (forall₂_scanLines .start front).length_eq.symm
  rw [includesOf, scan_textOf hcut, scanLines_append, hfront, scanLines_cons,
    includesOfLines_append, hlength, includesOfLines, hscan, Scan.prepend, List.append_assoc,
    includesOfLine_copied, Nat.add_comm 1 front.length, Nat.add_comm 1 gaps.length]
  exact List.mem_append_right _ (List.mem_append_left _ List.mem_cons_self)

/-- Without a closing bracket ahead, a walk closes no flow collection. -/
theorem depth_le_walk (indent : Nat) (stance : Stance) (chars : List Char)
    (hsquare : ']' ∉ chars) (hcurly : '\x7d' ∉ chars) :
    stance.depth ≤ (walk indent stance chars).after.depth := by
  induction stance, chars using walk_induct indent with
  | nil stance => exact Nat.le_refl _
  | stop stance char rest carry hstep => rw [walk_stop hstep]; exact Nat.le_refl _
  | take stance char rest pieces next after hstep ih =>
      have hsub : ∀ other ∈ after, other ∈ char :: rest := fun other hother => by
        rw [← sourceOf_of_step hstep]
        exact List.mem_append_right _ hother
      -- only a bracket that closes lowers the depth
      have hnext : stance.depth ≤ next.depth := by
        cases advance_of_step hstep with
        | bracket => exact Nat.le_succ _
        | plain =>
            have hopen : ¬(char = ']' ∨ char = '\x7d') := by
              rintro (rfl | rfl)
              · exact hsquare List.mem_cons_self
              · exact hcurly List.mem_cons_self
            simp [depthAfter, hopen]
        | _ => exact Nat.le_refl _
      rw [walk_take hstep]
      exact Nat.le_trans hnext (ih (fun h => hsquare (hsub _ h)) fun h => hcurly (hsub _ h))

/-- What a line that begins with an indicator is taken for behind lines that leave nothing
open. -/
theorem misread (hcut : Text.IsCut (front ++ line :: others))
    (hfront : stateBehind .start front = .start) :
    Misread (textOf (front ++ line :: others)) front line where
  property gaps char rest hgaps hline hchar := changed_of_property hcut hfront hgaps hline hchar
  reference gaps gap target after hgaps hline hreference :=
    recorded_of_reference hcut hfront hgaps hline hreference
  quote gaps char rest hgaps hline hquote hclose := by
    have hstep : ∀ width, step width (.fresh 0) char rest = .stop (.quoted char) :=
      fun width => (Advance.openQuote rfl hquote hclose).step_eq
    rw [stateBehind_append, hfront, stateBehind, scanLine_start, hline, walk_gaps hgaps,
      walk_stop (hstep _)]
    rfl
  block gaps char rest hgaps hline hblock hheader := by
    have hstep : ∀ width, step width (.fresh 0) char rest = .stop (.block width) :=
      fun width => (Advance.block rfl hblock hheader).step_eq
    rw [stateBehind_append, hfront, stateBehind, scanLine_start, hline, walk_gaps hgaps,
      walk_stop (hstep _)]
    rfl
  bracket gaps char rest hgaps hline hbracket hsquare hcurly := by
    have hstep : ∀ width, step width (.fresh 0) char rest =
        .take [.copied char] { (Stance.fresh 0).before with depth := 1 } rest :=
      fun width => (Advance.bracket rfl hbracket).step_eq
    rw [stateBehind_append, hfront, stateBehind, scanLine_start, hline, walk_gaps hgaps,
      walk_take (hstep _)]
    exact depth_le_walk _ { (Stance.fresh 0).before with depth := 1 } rest hsquare hcurly

/-! ## Behind a plain scalar -/

/-- A line with a key and a plain scalar, and lines below it that begin like plain text,
are copied and leave nothing open.  What is behind them is rewritten as if it stood alone,
whatever the plain scalar has to do with it; `Misread` says what becomes of the next line
if it begins with an indicator. -/
theorem behind_plain_scalar (hcut : Text.IsCut (before ++ first :: lines ++ later))
    (hbefore : stateBehind .start before = .start)
    (hfirst : (Text.splitEnding first).1 = entryLine indent key word)
    (hkey : IsKey key) (hword : IsPlain word [])
    (hlines : ∀ line ∈ lines, GoesOn (Text.splitEnding line).1) :
    stateBehind .start (before ++ first :: lines) = .start ∧
      (∀ properties, shownText properties (textOf (before ++ first :: lines ++ later)) =
        shownText properties (textOf before) ++ textOf (first :: lines) ++
          shownText properties (textOf later)) ∧
      includesOf (textOf (before ++ first :: lines ++ later)) =
        includesOf (textOf before) ++
          (includesOf (textOf later)).map (below (before.length + (first :: lines).length)) ∧
      ∀ line others, later = line :: others →
        Misread (textOf (before ++ first :: lines ++ later)) (before ++ first :: lines) line := by
  have hentry : scanLine .start (Text.splitEnding first).1 =
      Scan.copyRest (Text.splitEnding first).1 .start := by
    rw [hfirst]
    exact scanLine_entryLine hkey hword
  -- all lines of the scalar are copied, so the scan behind them starts anew
  have hcopies : Copies .start (first :: lines) .start :=
    .cons hentry (.of_forall fun line hline => scanLine_goesOn (hlines line hline))
  have hbehind : stateBehind .start (before ++ first :: lines) = .start := by
    rw [stateBehind_append, hbefore, hcopies.stateBehind_eq]
  refine ⟨hbehind, fun properties => shownText_between properties hcut hbefore hcopies,
    includesOf_between hcut hbefore hcopies, ?_⟩
  rintro line others rfl
  exact misread hcut hbehind

/-- Behind a plain scalar of two lines, a line that goes on with it is rewritten and
recorded, as it would be without the two lines. -/
theorem reference_below_plain_scalar :
    valuesText "a: b\n  c\n  !include d\ne: f\n" = "a: b\n  c\n  '!include d'\ne: f\n" ∧
      includesOf "a: b\n  c\n  !include d\ne: f\n" =
        [{ target := "d", line := 3, column := 3 }] := by
  have hkey : IsKey ['a'] := .plain (.of_letter rfl _)
  have hword : IsPlain ['b'] [] := .of_letter rfl _
  have hgoes : GoesOn [' ', ' ', 'c'] :=
    ⟨[' ', ' '], ['c'], rfl, by simp [isGap], .inr (.of_letter rfl _)⟩
  have hcut : Text.IsCut ([] ++ "a: b\n".toList :: ["  c\n".toList] ++
      ["  !include d\n".toList, "e: f\n".toList]) := by decide
  have hfirst : (Text.splitEnding "a: b\n".toList).1 = entryLine 0 ['a'] ['b'] := by decide
  have hlines : ∀ line ∈ ["  c\n".toList], GoesOn (Text.splitEnding line).1 :=
    List.forall_mem_singleton.mpr hgoes
  have hbelow := behind_plain_scalar hcut rfl hfirst hkey hword hlines
  exact ⟨hbelow.2.1 false, hbelow.2.2.1⟩

/-- Two texts with plain scalars of two lines.  The second line of the one is taken for a
reference, although its plain scalar goes on there.  The second line of the other leaves a
quote open, and the reference in the third one is lost. -/
theorem continuation_misread :
    (Yaml.read "description: See\n  !include notes.md\nversion: 1\n").toOption.any
        (·.same (.mapping [(.string "description", .string "See !include notes.md"),
          (.string "version", .number (.integer 1))])) = true ∧
      valuesText "description: See\n  !include notes.md\nversion: 1\n" =
        "description: See\n  '!include notes.md'\nversion: 1\n" ∧
      includesOf "description: See\n  !include notes.md\nversion: 1\n" =
        [{ target := "notes.md", line := 2, column := 3 }] ∧
      (Yaml.read "description: rock\n  'n roll\nversion: !include v.raml\n").toOption.any
        (·.same (.mapping [(.string "description", .string "rock 'n roll"),
          (.string "version", .tagged "!include" (.string "v.raml"))])) = true ∧
      stateBehind .start ["description: rock\n".toList, "  'n roll\n".toList] =
        { carry := .quoted '\'', depth := 0 } ∧
      includesOf "description: rock\n  'n roll\nversion: !include v.raml\n" = [] := by
  refine ⟨?_, ?_, ?_, ?_, ?_, ?_⟩ <;> decide +kernel

end RamlCheck.Include
