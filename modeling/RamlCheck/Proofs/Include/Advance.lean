import RamlCheck.Include.Rendering

/-!
# What a step of the walk can do

`step` decides by the stance and by what is ahead.  `Advance` lists its outcomes,
one constructor for each, together with the guards under which they come about;
`advance_step` says that the list is complete.  Everything that is proved about a
walk by cases refers to this list, so that `step` itself is opened only here.

## Strategy

* `Advance.plain` is the outcome when nothing else applies; `PlainAt` says what
  that excludes at the start of a node.
* A reference is described by the text it was read from, tag, gap and target one
  after another, and by what may follow the target.
-/

namespace RamlCheck.Include

/-- The text of a tag `!include` that is to be a reference starts with a gap and a
target; what follows the target does not belong to it. -/
structure ReferenceAt (gap target after : List Char) : Prop where
  gap_ne : gap ≠ []
  gap_isGap : ∀ char ∈ gap, isGap char = true
  target_ne : target ≠ []
  target_inTarget : ∀ char ∈ target, inTarget char = true
  after_stops : ∀ char ∈ after.head?, inTarget char = false

/-- A character at which no node begins as anything but plain text. -/
structure PlainAt (char : Char) (rest : List Char) : Prop where
  not_quote : char ≠ '\'' ∧ char ≠ '"'
  not_bracket : char ≠ '[' ∧ char ≠ '\x7b'
  not_property : char ≠ '&' ∧ char ≠ '*' ∧ char ≠ '!'
  not_dash : char = '-' → setsOff rest = false
  not_block : char = '|' ∨ char = '>' → isBlockHeader rest = false

/-- The stance behind a node that has content. -/
def Stance.behind (stance : Stance) : Stance :=
  { stance with nodeStart := false, afterGap := false }

/-- The stance behind something that a node still follows. -/
def Stance.before (stance : Stance) : Stance :=
  { stance with nodeStart := true, afterGap := false }

/-- The outcomes of a step at some character with some text behind it. -/
inductive Advance (indent : Nat) (stance : Stance) : Char → List Char → Step → Prop
  | gap {char : Char} {rest : List Char} (hgap : isGap char = true) :
      Advance indent stance char rest (.take [.copied char] { stance with afterGap := true } rest)
  | comment {rest : List Char} (hafter : stance.afterGap = true) :
      Advance indent stance '#' rest (.stop .nothing)
  | openQuote {char : Char} {rest : List Char} (hstart : stance.nodeStart = true)
      (hquote : char = '\'' ∨ char = '"') (hclose : closeQuote char false rest = none) :
      Advance indent stance char rest (.stop (.quoted char))
  | quoted {char : Char} {rest inside after : List Char} (hstart : stance.nodeStart = true)
      (hquote : char = '\'' ∨ char = '"')
      (hclose : closeQuote char false rest = some (inside, after)) :
      Advance indent stance char rest (.take ((char :: inside).map .copied) stance.behind after)
  | dash {rest : List Char} (hstart : stance.nodeStart = true) (hset : setsOff rest = true) :
      Advance indent stance '-' rest (.take [.copied '-'] stance.before rest)
  | bracket {char : Char} {rest : List Char} (hstart : stance.nodeStart = true)
      (hbracket : char = '[' ∨ char = '\x7b') :
      Advance indent stance char rest
        (.take [.copied char] { stance.before with depth := stance.depth + 1 } rest)
  | block {char : Char} {rest : List Char} (hstart : stance.nodeStart = true)
      (hblock : char = '|' ∨ char = '>') (hheader : isBlockHeader rest = true) :
      Advance indent stance char rest (.stop (.block indent))
  | anchor {rest : List Char} (hstart : stance.nodeStart = true) :
      Advance indent stance '&' rest
        (.take [.anchor ('&' :: rest.takeWhile inWord)] stance.before (rest.dropWhile inWord))
  | aliased {rest : List Char} (hstart : stance.nodeStart = true) :
      Advance indent stance '*' rest
        (.take [.aliased ('*' :: rest.takeWhile inWord)] stance.behind (rest.dropWhile inWord))
  | reference {rest gap target after : List Char} (hstart : stance.nodeStart = true)
      (htext : '!' :: rest = includeTag ++ gap ++ target ++ after)
      (hreference : ReferenceAt gap target after) :
      Advance indent stance '!' rest (.take [.reference gap target] stance.behind after)
  | tag {rest : List Char} (hstart : stance.nodeStart = true)
      (hnone : ∀ gap target after, '!' :: rest = includeTag ++ gap ++ target ++ after →
        ¬ ReferenceAt gap target after) :
      Advance indent stance '!' rest
        (.take [.tag ('!' :: rest.takeWhile inWord)] stance.before (rest.dropWhile inWord))
  | plain {char : Char} {rest : List Char} (hgap : isGap char = false)
      (hcomment : char = '#' → stance.afterGap = false)
      (hplain : stance.nodeStart = true → PlainAt char rest) :
      Advance indent stance char rest
        (.take [.copied char]
          { nodeStart := startsNode stance.depth char rest
            afterGap := false
            depth := depthAfter stance.depth char } rest)

/-! ## The piece that a tag begins -/

theorem drop_length_takeWhile {Item : Type} (test : Item → Bool) (items : List Item) :
    items.drop (items.takeWhile test).length = items.dropWhile test := by
  induction items with
  | nil => rfl
  | cons item rest ih => cases htest : test item <;> simp [htest, ih]

theorem not_of_mem_head?_dropWhile {Item : Type} {test : Item → Bool} {items : List Item}
    {item : Item} (hitem : item ∈ (items.dropWhile test).head?) : test item = false := by
  induction items with
  | nil => simp at hitem
  | cons first rest ih =>
      cases htest : test first with
      | true => exact ih (by simpa [htest] using hitem)
      | false =>
          simp only [List.dropWhile_cons, htest, Bool.false_eq_true, if_false, List.head?_cons,
            Option.mem_def, Option.some.injEq] at hitem
          rwa [← hitem]

/-- Of a text whose front passes a test up to where it stops, the front is what
`takeWhile` takes. -/
theorem takeWhile_append_of_stops {Item : Type} {test : Item → Bool} {front rest : List Item}
    (hfront : ∀ item ∈ front, test item = true) (hrest : ∀ item ∈ rest.head?, test item = false) :
    (front ++ rest).takeWhile test = front ∧ (front ++ rest).dropWhile test = rest := by
  induction front with
  | nil =>
      cases rest with
      | nil => simp
      | cons item rest => simp [hrest item (by simp)]
  | cons item front ih =>
      obtain ⟨htake, hdrop⟩ := ih fun other hother => hfront other (List.mem_cons_of_mem _ hother)
      simp [hfront item (by simp), htake, hdrop]

theorem isGap_iff {char : Char} : isGap char = true ↔ char = ' ' ∨ char = '\t' := by
  simp [isGap]

theorem inWord_of_isGap {char : Char} (hgap : isGap char = true) : inWord char = false := by
  simp [inWord, hgap]

theorem inTarget_of_isGap {char : Char} (hgap : isGap char = true) : inTarget char = false := by
  simp [inTarget, hgap]

theorem inWord_of_mem_includeTag {char : Char} (hchar : char ∈ includeTag) :
    inWord char = true := by
  have hall : includeTag.all inWord = true := by decide
  exact List.all_eq_true.mp hall char hchar

/-- The tag of a reference, its gap and its target are what the walk takes them for. -/
theorem tagPiece_of_referenceAt {gap target after : List Char}
    (hreference : ReferenceAt gap target after) :
    tagPiece (includeTag ++ gap ++ target ++ after) = (.reference gap target, after) := by
  have hgapFirst : ∀ char ∈ (gap ++ target ++ after).head?, inWord char = false := by
    intro char hchar
    cases hgap : gap with
    | nil => exact absurd hgap hreference.gap_ne
    | cons first others =>
        have : first = char := by simpa [hgap] using hchar
        exact inWord_of_isGap (hreference.gap_isGap char (by simp [hgap, this]))
  have htargetFirst : ∀ char ∈ (target ++ after).head?, isGap char = false := by
    intro char hchar
    cases htarget : target with
    | nil => exact absurd htarget hreference.target_ne
    | cons first others =>
        have hfirst : first = char := by simpa [htarget] using hchar
        have hin := hreference.target_inTarget char (by simp [htarget, hfirst])
        cases hgap : isGap char with
        | false => rfl
        | true => rw [inTarget_of_isGap hgap] at hin; contradiction
  -- so each part ends where the next one begins
  have hword := takeWhile_append_of_stops
    (fun char hchar => inWord_of_mem_includeTag hchar) hgapFirst
  have hgap := takeWhile_append_of_stops hreference.gap_isGap htargetFirst
  have htarget := takeWhile_append_of_stops hreference.target_inTarget hreference.after_stops
  have htext : includeTag ++ gap ++ target ++ after = includeTag ++ (gap ++ target ++ after) := by
    simp
  have hrest : gap ++ target ++ after = gap ++ (target ++ after) := by simp
  simp only [tagPiece]
  rw [htext, hword.1, List.drop_left, hrest, hgap.1, List.drop_left, htarget.1]
  rw [if_pos ⟨rfl, hreference.gap_ne, hreference.target_ne⟩, ← hrest, ← List.length_append,
    List.drop_left]

/-- A reference that the walk takes reads as tag, gap and target. -/
theorem referenceAt_of_tagPiece {chars gap target after : List Char}
    (htag : tagPiece chars = (.reference gap target, after)) :
    chars = includeTag ++ gap ++ target ++ after ∧ ReferenceAt gap target after := by
  have hsource := source_tagPiece chars
  rw [htag] at hsource
  refine ⟨by simpa [Piece.source] using hsource.symm, ?_⟩
  simp only [tagPiece] at htag
  split at htag
  · next hreference =>
    obtain ⟨hpiece, hafter⟩ := Prod.mk.inj htag
    injection hpiece with hgap htarget
    subst hgap htarget
    refine ⟨hreference.2.1, fun char hchar => ?_, hreference.2.2, fun char hchar => ?_,
      fun char hchar => ?_⟩
    · exact List.all_eq_true.mp List.all_takeWhile char hchar
    · exact List.all_eq_true.mp List.all_takeWhile char hchar
    · rw [← hafter, ← List.drop_drop, drop_length_takeWhile inTarget] at hchar
      exact not_of_mem_head?_dropWhile hchar
  · simp at htag

/-- What is no reference is a tag: the word up to a blank or a flow indicator. -/
theorem tagPiece_of_no_reference {rest : List Char}
    (hnone : ∀ gap target after, '!' :: rest = includeTag ++ gap ++ target ++ after →
      ¬ ReferenceAt gap target after) :
    tagPiece ('!' :: rest) = (.tag ('!' :: rest.takeWhile inWord), rest.dropWhile inWord) := by
  have hbang : inWord '!' = true := by decide
  cases htag : tagPiece ('!' :: rest) with
  | mk piece after =>
      have hcopy := htag
      simp only [tagPiece] at htag
      split at htag
      · obtain ⟨hpiece, -⟩ := Prod.mk.inj htag
        subst hpiece
        obtain ⟨htext, hreference⟩ := referenceAt_of_tagPiece hcopy
        exact absurd hreference (hnone _ _ _ htext)
      · rw [← htag, drop_length_takeWhile]
        simp [hbang]

/-! ## The list is complete -/

theorem advance_nodeStep? {indent : Nat} {stance : Stance} {char : Char} {rest : List Char}
    {taken : Step} (hstart : stance.nodeStart = true)
    (hstep : nodeStep? indent stance char rest = some taken) :
    Advance indent stance char rest taken := by
  have hamp : inWord '&' = true := by decide
  have hstar : inWord '*' = true := by decide
  unfold nodeStep? at hstep
  split at hstep
  · split at hstep
    · next hclose => cases hstep; exact .openQuote hstart (.inl rfl) hclose
    · next hclose => cases hstep; exact .quoted hstart (.inl rfl) hclose
  · split at hstep
    · next hclose => cases hstep; exact .openQuote hstart (.inr rfl) hclose
    · next hclose => cases hstep; exact .quoted hstart (.inr rfl) hclose
  · split at hstep
    · next hset => cases hstep; exact .dash hstart hset
    · simp at hstep
  · cases hstep; exact .bracket hstart (.inl rfl)
  · cases hstep; exact .bracket hstart (.inr rfl)
  · split at hstep
    · next hheader => cases hstep; exact .block hstart (.inl rfl) hheader
    · simp at hstep
  · split at hstep
    · next hheader => cases hstep; exact .block hstart (.inr rfl) hheader
    · simp at hstep
  · cases hstep
    simpa [drop_length_takeWhile, hamp, Stance.before] using Advance.anchor hstart
  · cases hstep
    simpa [drop_length_takeWhile, hstar, Stance.behind] using Advance.aliased hstart
  · split at hstep
    · next htag =>
      cases hstep
      obtain ⟨htext, hreference⟩ := referenceAt_of_tagPiece htag
      exact .reference hstart htext hreference
    · -- no reference begins here, since the walk would have taken it
      next piece after hother htag =>
      cases hstep
      have hnone : ∀ gap target after, '!' :: rest = includeTag ++ gap ++ target ++ after →
          ¬ ReferenceAt gap target after := by
        intro gap target behind htext hreference
        rw [htext, tagPiece_of_referenceAt hreference] at htag
        obtain ⟨hpiece, -⟩ := Prod.mk.inj htag
        exact hother _ _ hpiece.symm
      rw [tagPiece_of_no_reference hnone] at htag
      obtain ⟨rfl, rfl⟩ := Prod.mk.inj htag
      exact .tag hstart hnone
  · simp at hstep

theorem plainAt_of_nodeStep? {indent : Nat} {stance : Stance} {char : Char} {rest : List Char}
    (hstep : nodeStep? indent stance char rest = none) : PlainAt char rest := by
  constructor
  · constructor <;> rintro rfl <;> simp only [nodeStep?] at hstep <;> split at hstep <;>
      simp at hstep
  · constructor <;> rintro rfl <;> simp [nodeStep?] at hstep
  · refine ⟨?_, ?_, ?_⟩ <;> rintro rfl <;> simp only [nodeStep?] at hstep
    · simp at hstep
    · simp at hstep
    · split at hstep <;> simp at hstep
  · rintro rfl
    simpa [nodeStep?] using hstep
  · rintro (rfl | rfl) <;> simpa [nodeStep?] using hstep

theorem advance_step (indent : Nat) (stance : Stance) (char : Char) (rest : List Char) :
    Advance indent stance char rest (step indent stance char rest) := by
  unfold step
  split
  · next hgap => exact .gap hgap
  next hgap =>
  split
  · next hcomment =>
    simp only [Bool.and_eq_true, decide_eq_true_eq] at hcomment
    obtain ⟨rfl, hafter⟩ := hcomment
    exact .comment hafter
  next hcomment =>
  have hnotComment : char = '#' → stance.afterGap = false := by
    rintro rfl
    simpa using hcomment
  split
  · next taken hnode =>
    split at hnode
    · next hstart => exact advance_nodeStep? hstart hnode
    · simp at hnode
  · next hnode =>
    refine .plain (by simpa using hgap) hnotComment fun hstart => ?_
    rw [if_pos hstart] at hnode
    exact plainAt_of_nodeStep? hnode

/-! ## What the list says at once -/

variable {indent : Nat} {stance next : Stance} {char : Char} {rest after : List Char}

/-- Each step that goes on takes some text. -/
theorem Advance.sourceOf_ne_nil {pieces : List Piece}
    (hstep : Advance indent stance char rest (.take pieces next after)) :
    sourceOf pieces ≠ [] := by
  cases hstep with
  | quoted => rw [sourceOf_copied]; exact List.cons_ne_nil _ _
  | reference _ _ hreference => simp [Piece.source, hreference.target_ne]
  | _ => simp [Piece.source]

/-- A character that no indicator can be is taken as plain text. -/
theorem Advance.of_le {taken : Step} (hstep : Advance indent stance char rest taken)
    (hchar : 128 ≤ char.toNat) :
    taken = .take [.copied char]
      { nodeStart := startsNode stance.depth char rest
        afterGap := false
        depth := depthAfter stance.depth char } rest := by
  cases hstep with
  | gap hgap => rcases isGap_iff.mp hgap with rfl | rfl <;> contradiction
  | openQuote _ hquote => rcases hquote with rfl | rfl <;> contradiction
  | quoted _ hquote => rcases hquote with rfl | rfl <;> contradiction
  | bracket _ hbracket => rcases hbracket with rfl | rfl <;> contradiction
  | block _ hblock => rcases hblock with rfl | rfl <;> contradiction
  | plain => rfl
  | comment | dash | anchor | aliased | reference | tag => contradiction

/-! ## What is left open -/

/-- What is left open as a quoted scalar was opened by a quote. -/
def Carry.IsQuote : Carry → Prop
  | .quoted quote => quote = '\'' ∨ quote = '"'
  | .nothing => True
  | .block _ => True

theorem Advance.isQuote {carry : Carry} (hstep : Advance indent stance char rest (.stop carry)) :
    carry.IsQuote := by
  cases hstep with
  | openQuote _ hquote => exact hquote
  | comment => trivial
  | block => trivial

theorem isQuote_scanBody (indent fuel : Nat) (stance : Stance) (chars : List Char) :
    (scanBody indent fuel stance chars).after.carry.IsQuote := by
  induction fuel generalizing stance chars with
  | zero => trivial
  | succ fuel ih =>
      cases chars with
      | nil => trivial
      | cons char rest =>
          have hadvance := advance_step indent stance char rest
          rw [scanBody]
          split
          · next hstep =>
            rw [hstep] at hadvance
            exact hadvance.isQuote
          · exact ih _ _

theorem isQuote_scanLine {state : State} (hstate : state.carry.IsQuote) (line : List Char) :
    (scanLine state line).after.carry.IsQuote := by
  simp only [scanLine]
  split
  · exact isQuote_scanBody ..
  · split
    · exact hstate
    · exact isQuote_scanBody ..
  · split
    · exact hstate
    · exact isQuote_scanBody ..

end RamlCheck.Include
