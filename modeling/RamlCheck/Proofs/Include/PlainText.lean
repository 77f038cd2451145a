import RamlCheck.Proofs.Include.Quoting
import RamlCheck.Proofs.Include.Settled

/-!
# Walking over plain text

Outside of flow collections the walk passes plain text and takes nothing of it, as long as
no `:` in it is set off and no `#` begins a comment (`RunsOn`, `walk_runsOn`).  A key with
its `: ` leaves the walk where it was in front of the key, and so do spaces and the dashes
of sequences (`walk_key`, `walk_gaps`, `walk_dashes`).

## Strategy

What stands behind a text matters only by whether it sets off a `:` at the end of the text
(`RunsOn.congr`), and at the start of a node also by whether it makes the text the header
of a block scalar (`PlainAt.behind_key`).
-/

namespace RamlCheck.Include

variable {indent depth : Nat} {stance : Stance} {text behind other rest gaps : List Char}

/-- Text in which nothing lets a node start and nothing begins a comment, with some text
behind it. -/
structure RunsOn (text behind : List Char) : Prop where
  no_colon : ∀ front after, text = front ++ ':' :: after → setsOff (after ++ behind) = false
  no_comment : ∀ front gap after, text = front ++ gap :: '#' :: after → isGap gap = false

/-- Text that is plain where a node may start, with some text behind it. -/
structure IsPlain (text behind : List Char) : Prop extends RunsOn text behind where
  begins : ∃ first after, text = first :: after ∧ isGap first = false ∧ first ≠ '#' ∧
    PlainAt first (after ++ behind)

/-- The key of an entry, as it stands in front of its `: `. -/
inductive IsKey : List Char → Prop
  | plain {text : List Char} (hplain : IsPlain text [':', ' ']) : IsKey text
  | single (name : List Char) : IsKey (singleQuoted name)
  | double (name : List Char) : IsKey (doubleQuoted name)

/-- The indicators of some sequences that begin in one line. -/
def dashes : Nat → List Char
  | 0 => []
  | count + 1 => '-' :: ' ' :: dashes count

theorem prepend_append (front pieces : List Piece) (scan : Scan) :
    scan.prepend (front ++ pieces) = (scan.prepend pieces).prepend front := by
  rw [Scan.prepend, Scan.prepend, Scan.prepend, List.append_assoc]

/-- Letters and digits are plain wherever a node may start. -/
theorem IsPlain.of_alphanum (hne : text ≠ []) (hchars : ∀ char ∈ text, char.isAlphanum = true)
    (behind : List Char) : IsPlain text behind where
  no_colon front after htext := absurd (hchars ':' (by simp [htext])) (by decide)
  no_comment front gap after htext := absurd (hchars '#' (by simp [htext])) (by decide)
  begins := by
    obtain ⟨first, after, rfl⟩ := List.exists_cons_of_ne_nil hne
    have hfirst : ∀ char, char.isAlphanum = false → first ≠ char := by
      rintro char hchar rfl
      rw [hchars first List.mem_cons_self] at hchar
      contradiction
    refine ⟨first, after, rfl, ?_, hfirst _ (by decide), ?_, ?_, ?_, ?_, ?_⟩
    · simp [isGap, hfirst ' ' (by decide), hfirst '\t' (by decide)]
    · exact ⟨hfirst _ (by decide), hfirst _ (by decide)⟩
    · exact ⟨hfirst _ (by decide), hfirst _ (by decide)⟩
    · exact ⟨hfirst _ (by decide), hfirst _ (by decide), hfirst _ (by decide)⟩
    · exact fun hdash => absurd hdash (hfirst _ (by decide))
    · exact fun hblock => hblock.elim (absurd · (hfirst _ (by decide)))
        (absurd · (hfirst _ (by decide)))

theorem IsPlain.of_letter {char : Char} (hchar : char.isAlphanum = true) (behind : List Char) :
    IsPlain [char] behind :=
  .of_alphanum (List.cons_ne_nil _ _) (List.forall_mem_singleton.mpr hchar) behind

/-! ## What stands behind -/

theorem setsOff_append (after : List Char) (hsets : setsOff behind = setsOff other) :
    setsOff (after ++ behind) = setsOff (after ++ other) := by
  cases after with
  | nil => exact hsets
  | cons char after => rfl

theorem RunsOn.congr (hruns : RunsOn text behind) (hsets : setsOff behind = setsOff other) :
    RunsOn text other where
  no_colon front after htext := by
    rw [← setsOff_append after hsets]
    exact hruns.no_colon front after htext
  no_comment := hruns.no_comment

theorem PlainAt.behind_key {first : Char} {after : List Char}
    (hplain : PlainAt first (after ++ [':', ' '])) (rest : List Char) :
    PlainAt first (after ++ ':' :: ' ' :: rest) where
  not_quote := hplain.not_quote
  not_bracket := hplain.not_bracket
  not_property := hplain.not_property
  not_dash hdash := by
    have hsets : setsOff (':' :: ' ' :: rest) = setsOff [':', ' '] := rfl
    rw [setsOff_append after hsets]
    exact hplain.not_dash hdash
  not_block hblock := by
    have hcolon : ':' ∈ after ++ [':', ' '] := by simp
    have happend := isBlockHeader_append hcolon (.inl rfl) rest
    rw [List.append_assoc] at happend
    exact happend.trans (hplain.not_block hblock)

theorem RunsOn.tail {char : Char} (hruns : RunsOn (char :: text) behind) : RunsOn text behind where
  no_colon front after htext := hruns.no_colon (char :: front) after (by rw [htext]; rfl)
  no_comment front gap after htext :=
    hruns.no_comment (char :: front) gap after (by rw [htext]; rfl)

/-! ## Plain text -/

/-- A character of plain text leaves the walk in plain text. -/
theorem step_runsOn (indent : Nat) {char : Char} (hruns : RunsOn (char :: text) behind)
    (hplain : stance.nodeStart = true → PlainAt char (text ++ behind))
    (hgap : isGap char = false) (hdepth : stance.depth = 0)
    (hhash : stance.afterGap = true → char ≠ '#') :
    step indent stance char (text ++ behind) =
      .take [.copied char] { nodeStart := false, afterGap := false, depth := 0 }
        (text ++ behind) := by
  have hcomment : char = '#' → stance.afterGap = false :=
    fun heq => Bool.eq_false_iff.mpr fun htrue => hhash htrue heq
  have hstarts : startsNode 0 char (text ++ behind) = false := by
    by_cases hcolon : char = ':'
    · subst hcolon
      simp [startsNode, hruns.no_colon [] text rfl]
    · simp [startsNode, hcolon]
  have hadvance : Advance indent stance char (text ++ behind) _ :=
    .plain hgap hcomment hplain
  have hstep := hadvance.step_eq
  rw [hdepth, hstarts] at hstep
  have hnone : depthAfter 0 char = 0 := by simp [depthAfter]
  rwa [hnone] at hstep

/-- Where no node may start, the walk copies text that runs on. -/
theorem walk_runsOn (indent : Nat) (hruns : RunsOn text behind) (hstart : stance.nodeStart = false)
    (hdepth : stance.depth = 0) (hhash : stance.afterGap = true → text.head? ≠ some '#') :
    ∃ afterGap, walk indent stance (text ++ behind) =
      (walk indent { nodeStart := false, afterGap, depth := 0 } behind).prepend
        (text.map .copied) := by
  induction text generalizing stance with
  | nil =>
      obtain ⟨nodeStart, afterGap, depth⟩ := stance
      obtain ⟨rfl, rfl⟩ : nodeStart = false ∧ depth = 0 := ⟨hstart, hdepth⟩
      exact ⟨afterGap, rfl⟩
  | cons char text ih =>
      cases hgap : isGap char with
      | true =>
          have hstep : step indent stance char (text ++ behind) =
              .take [.copied char] { stance with afterGap := true } (text ++ behind) :=
            (Advance.gap hgap).step_eq
          -- behind a gap a `#` would be a comment, which text that runs on does not hold
          have hnext : text.head? ≠ some '#' := by
            rintro hhead
            obtain ⟨after, rfl⟩ := List.head?_eq_some_iff.mp hhead
            have hnot := hruns.no_comment [] char after rfl
            rw [hgap] at hnot
            contradiction
          obtain ⟨afterGap, hwalk⟩ :=
            @ih { stance with afterGap := true } hruns.tail hstart hdepth
              fun _ => hnext
          refine ⟨afterGap, ?_⟩
          rw [List.cons_append, walk_take hstep, hwalk, ← prepend_append]
          rfl
      | false =>
          have hstep := step_runsOn indent hruns
            (fun htrue => by rw [hstart] at htrue; contradiction) hgap hdepth
            fun htrue heq => hhash htrue (by rw [heq]; rfl)
          obtain ⟨afterGap, hwalk⟩ :=
            @ih { nodeStart := false, afterGap := false, depth := 0 } hruns.tail rfl rfl
              fun htrue => absurd htrue (by simp)
          refine ⟨afterGap, ?_⟩
          rw [List.cons_append, walk_take hstep, hwalk, ← prepend_append]
          rfl

/-- The walk copies plain text where a node may start. -/
theorem walk_isPlain (indent : Nat) (hplain : IsPlain text behind) :
    ∃ afterGap, walk indent (.fresh 0) (text ++ behind) =
      (walk indent { nodeStart := false, afterGap, depth := 0 } behind).prepend
        (text.map .copied) := by
  obtain ⟨first, after, rfl, hgap, hhash, hbegins⟩ := hplain.begins
  let within : Stance := { nodeStart := false, afterGap := false, depth := 0 }
  have hstep : step indent (.fresh 0) first (after ++ behind) =
      .take [.copied first] within (after ++ behind) :=
    step_runsOn indent hplain.toRunsOn (fun _ => hbegins) hgap rfl fun _ => hhash
  have hafter : within.afterGap = true → after.head? ≠ some '#' :=
    fun htrue => absurd htrue (by simp [within])
  obtain ⟨afterGap, hwalk⟩ := walk_runsOn indent hplain.toRunsOn.tail rfl rfl hafter
  refine ⟨afterGap, ?_⟩
  rw [List.cons_append, walk_take hstep, hwalk, ← prepend_append]
  rfl

/-! ## What stands in front of a value -/

theorem walk_gap {char : Char} (hgap : isGap char = true) (rest : List Char) :
    walk indent stance (char :: rest) =
      (walk indent { stance with afterGap := true } rest).prepend [.copied char] :=
  walk_take (Advance.gap hgap).step_eq

/-- Gaps at the start of a line leave the walk where it was. -/
theorem walk_gaps (hgaps : ∀ char ∈ gaps, isGap char = true) (rest : List Char) :
    walk indent (.fresh depth) (gaps ++ rest) =
      (walk indent (.fresh depth) rest).prepend (gaps.map .copied) := by
  induction gaps with
  | nil => rfl
  | cons char gaps ih =>
      obtain ⟨hgap, hgaps⟩ := List.forall_mem_cons.mp hgaps
      have hfresh : { Stance.fresh depth with afterGap := true } = Stance.fresh depth := rfl
      rw [List.cons_append, walk_gap hgap, hfresh, ih hgaps, ← prepend_append]
      rfl

theorem walk_dashes (count : Nat) (rest : List Char) :
    walk indent (.fresh depth) (dashes count ++ rest) =
      (walk indent (.fresh depth) rest).prepend ((dashes count).map .copied) := by
  induction count with
  | zero => rfl
  | succ count ih =>
      have hdash : step indent (.fresh depth) '-' (' ' :: (dashes count ++ rest)) =
          .take [.copied '-'] (Stance.fresh depth).before (' ' :: (dashes count ++ rest)) :=
        (Advance.dash rfl rfl).step_eq
      have hfresh :
          { (Stance.fresh depth).before with afterGap := true } = Stance.fresh depth := rfl
      rw [dashes, List.cons_append, List.cons_append, walk_take hdash, walk_gap rfl, hfresh, ih,
        ← prepend_append, ← prepend_append]
      rfl

/-- The `: ` behind a key lets a value start. -/
theorem walk_colon (afterGap : Bool) (rest : List Char) :
    walk indent { nodeStart := false, afterGap, depth } (':' :: ' ' :: rest) =
      (walk indent (.fresh depth) rest).prepend ([':', ' '].map .copied) := by
  have hcolon : step indent { nodeStart := false, afterGap, depth } ':' (' ' :: rest) =
      .take [.copied ':'] { nodeStart := true, afterGap := false, depth } (' ' :: rest) :=
    (Advance.plain rfl (fun heq => absurd heq (by decide)) fun htrue =>
      absurd htrue (by simp)).step_eq
  rw [walk_take hcolon, walk_gap rfl, ← prepend_append]
  rfl

/-- A scalar in quotes where a node may start is copied. -/
theorem walk_quoted {quote : Char} {inside after : List Char}
    (hquote : quote = '\'' ∨ quote = '"')
    (hclose : closeQuote quote false (inside ++ after) = some (inside, after)) :
    walk indent (.fresh depth) (quote :: inside ++ after) =
      (walk indent { nodeStart := false, afterGap := false, depth } after).prepend
        ((quote :: inside).map .copied) :=
  walk_take (Advance.quoted rfl hquote hclose).step_eq

/-- Behind a key and its `: ` the walk is where it was in front of the key. -/
theorem walk_key (hkey : IsKey text) (rest : List Char) :
    walk indent (.fresh 0) (text ++ ':' :: ' ' :: rest) =
      (walk indent (.fresh 0) rest).prepend ((text ++ [':', ' ']).map .copied) := by
  rw [List.map_append]
  cases hkey with
  | plain hplain =>
      obtain ⟨first, after, hfirst, hgap, hhash, hbegins⟩ := hplain.begins
      have hruns : RunsOn text (':' :: ' ' :: rest) := hplain.toRunsOn.congr rfl
      have hlonger : IsPlain text (':' :: ' ' :: rest) :=
        { hruns with begins := ⟨first, after, hfirst, hgap, hhash, hbegins.behind_key rest⟩ }
      obtain ⟨afterGap, hwalk⟩ := walk_isPlain indent hlonger
      rw [hwalk, walk_colon, ← prepend_append]
  | single name =>
      have hcolon : (':' :: ' ' :: rest).head? ≠ some '\'' := by simp
      obtain ⟨inside, hform, hclose⟩ := closeQuote_singleQuoted name hcolon
      rw [hform, walk_quoted (.inl rfl) hclose, walk_colon, ← prepend_append]
  | double name =>
      obtain ⟨inside, hform, hclose⟩ := closeQuote_doubleQuoted name (':' :: ' ' :: rest)
      rw [hform, walk_quoted (.inr rfl) hclose, walk_colon, ← prepend_append]

/-- A key does not begin with a space. -/
theorem IsKey.head?_ne (hkey : IsKey text) : text ≠ [] ∧ text.head? ≠ some ' ' := by
  cases hkey with
  | plain hplain =>
      obtain ⟨first, after, rfl, hgap, -⟩ := hplain.begins
      refine ⟨List.cons_ne_nil _ _, ?_⟩
      rintro ⟨⟩
      contradiction
  | single name => exact ⟨List.cons_ne_nil _ _, by simp [singleQuoted]⟩
  | double name => exact ⟨List.cons_ne_nil _ _, by simp [doubleQuoted]⟩

end RamlCheck.Include
