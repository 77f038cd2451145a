import RamlCheck.Proofs.Include.ClosingQuote

/-!
# The walk over bytes finds the pieces

`ByteWalk.scanLine?` and `scanLine` read a line in step: what the first finds are the
spans of what the second takes, and both leave the same open (`scanLine?_eq`).

## Strategy

The cursor of the first walk stands behind the bytes of the characters that the second
has passed (`cursorAt`).  A `#` begins a comment for one by the byte in front of it and
for the other by `Stance.afterGap`; `AtGap` says that these agree.  Then `turn?_stop`
and `turn?_take` go through the outcomes of a step, `walk?_bytes` is the induction over
the characters that are left.
-/

namespace RamlCheck.Include.ByteWalk

open Text (bytesOf size slice?)

/-! ## Bytes in front of and behind the cursor -/

/-- The cursor behind some characters, in the stance of the other walk. -/
def cursorAt (before : List Char) (stance : Stance) : Cursor :=
  { place := size before, nodeStart := stance.nodeStart, depth := stance.depth }

/-- A stance knows whether the characters in front of it end with a gap; the start of
a line counts as one. -/
def AtGap (before : List Char) (stance : Stance) : Prop :=
  stance.afterGap = before.getLast?.all isGap

@[simp] theorem place_cursorAt (before : List Char) (stance : Stance) :
    (cursorAt before stance).place = size before := rfl

@[simp] theorem nodeStart_cursorAt (before : List Char) (stance : Stance) :
    (cursorAt before stance).nodeStart = stance.nodeStart := rfl

@[simp] theorem depth_cursorAt (before : List Char) (stance : Stance) :
    (cursorAt before stance).depth = stance.depth := rfl

theorem isOneOf_head {chars : List Char} (hchars : Narrow chars) {char : Char}
    {rest : List Char} {first : UInt8} {others : List UInt8}
    (hbytes : bytesOf (char :: rest) = first :: others) :
    isOneOf chars first = chars.contains char := by
  rw [Bool.eq_iff_iff, isOneOf, List.any_eq_true, List.contains_iff_mem]
  constructor
  · rintro ⟨other, hother, heq⟩
    have hchar := (head_bytesOf_eq_iff (hchars other hother) hbytes).mp (of_decide_eq_true heq).symm
    rwa [hchar]
  · intro hmem
    exact ⟨char, hmem,
      decide_eq_true ((head_bytesOf_eq_iff (hchars char hmem) hbytes).mpr rfl).symm⟩

theorem narrow_gap : Narrow [' ', '\t'] :=
  narrow_of_all (by decide)

theorem isGap_eq_contains (char : Char) : isGap char = [' ', '\t'].contains char := by
  simp [isGap]

theorem isGapByte_head {char : Char} {rest : List Char} {first : UInt8} {others : List UInt8}
    (hbytes : bytesOf (char :: rest) = first :: others) : isGapByte first = isGap char := by
  rw [isGapByte, isOneOf_head narrow_gap hbytes, isGap_eq_contains]

theorem getElem?_bytesOf (before rest : List Char) :
    (bytesOf (before ++ rest))[size before]? = (bytesOf rest).head? := by
  rw [Text.bytesOf_append, size, List.getElem?_append_right (Nat.le_refl _), Nat.sub_self,
    List.head?_eq_getElem?]

theorem isSeparator_bytesOf (before rest : List Char) :
    isSeparator (bytesOf (before ++ rest)) (size before) = setsOff rest := by
  rw [isSeparator, getElem?_bytesOf]
  cases rest with
  | nil => rfl
  | cons char rest =>
      have hne : char :: rest ≠ [] := by simp
      obtain ⟨first, others, hbytes⟩ := List.exists_cons_of_ne_nil (Text.bytesOf_ne_nil hne)
      rw [hbytes]
      exact isGapByte_head hbytes

/-- The last byte of a character is a gap only if the character is. -/
theorem isGapByte_last {char : Char} {front : List UInt8} {last : UInt8}
    (hbytes : String.utf8EncodeChar char = front ++ [last]) : isGapByte last = isGap char := by
  rcases Nat.lt_or_ge char.toNat 128 with hchar | hchar
  · rw [Text.utf8EncodeChar_of_lt hchar] at hbytes
    have hlast := congrArg List.getLast? hbytes
    simp only [List.getLast?_singleton, List.getLast?_concat, Option.some.injEq] at hlast
    rw [← hlast, isGapByte, isOneOf_toUInt8 narrow_gap hchar, isGap_eq_contains]
  · have hmem : last ∈ String.utf8EncodeChar char := by simp [hbytes]
    have hlast := Text.le_of_mem_utf8EncodeChar hchar hmem
    have hnot : char ∉ [' ', '\t'] := fun hmem => absurd (narrow_gap char hmem) (by omega)
    rw [isGapByte, isOneOf_of_le narrow_gap hlast, isGap_eq_contains]
    simpa using hnot

/-- The byte in front of the cursor tells whether the character there is a gap. -/
theorem isGapByte_before (before rest : List Char) :
    (size before = 0 ∨ (bytesOf (before ++ rest))[size before - 1]?.any isGapByte = true) ↔
      before.getLast?.all isGap = true := by
  rcases List.eq_nil_or_concat before with rfl | ⟨init, char, rfl⟩
  · simp
  · rw [List.concat_eq_append, List.getLast?_concat]
    rcases List.eq_nil_or_concat (String.utf8EncodeChar char) with hnil | ⟨front, last, hbytes⟩
    · exact absurd hnil (Text.utf8EncodeChar_ne_nil char)
    rw [List.concat_eq_append] at hbytes
    have hsize : size (init ++ [char]) = size init + front.length + 1 := by
      simp [← String.length_utf8EncodeChar, hbytes, Nat.add_assoc]
    have hlast : (bytesOf (init ++ [char] ++ rest))[size init + front.length]? = some last := by
      rw [Text.bytesOf_append, Text.bytesOf_append, Text.bytesOf_cons, hbytes, size]
      simp
    rw [hsize, Nat.add_sub_cancel, hlast]
    simp [isGapByte_last hbytes]

/-! ## Plain text -/

theorem size_concat_narrow (before : List Char) {char : Char} (hchar : char.toNat < 128) :
    size (before ++ [char]) = size before + 1 := by
  rw [Text.size_append, size, size, Text.bytesOf_cons, Text.utf8EncodeChar_of_lt hchar]
  rfl

theorem isSeparator_behind (before rest : List Char) {char : Char} (hchar : char.toNat < 128) :
    isSeparator (bytesOf (before ++ char :: rest)) (size before + 1) = setsOff rest := by
  rw [← size_concat_narrow before hchar, ← isSeparator_bytesOf (before ++ [char]) rest,
    List.append_assoc, List.singleton_append]

theorem slice?_behind (before rest : List Char) {char : Char} (hchar : char.toNat < 128) :
    slice? (before ++ char :: rest) (size before + 1) (size (before ++ char :: rest)) =
      some rest := by
  have hslice := Text.slice?_append (before ++ [char]) rest []
  rw [← Text.size_append, List.append_nil, List.append_assoc, List.singleton_append,
    size_concat_narrow before hchar] at hslice
  exact hslice

/-- A byte of a wide character is passed. -/
theorem turn?_of_le {byte : UInt8} (hbyte : 128 ≤ byte.toNat) (line : List Char) (indent : Nat)
    (cursor : Cursor) :
    turn? line indent cursor byte =
      some (.go [] { cursor with place := cursor.place + 1, nodeStart := false }) := by
  have hne : ∀ char : Char, char.toNat < 128 → byte ≠ char.toUInt8 :=
    fun char hchar => (toUInt8_ne_of_le hchar hbyte).symm
  have hgap : isGapByte byte = false := isOneOf_of_le narrow_gap hbyte
  have hplain : plainTurn line cursor byte =
      .go [] { cursor with place := cursor.place + 1, nodeStart := false } := by
    simp [plainTurn, hne ':' (by decide), hne ',' (by decide), hne ']' (by decide),
      hne '\x7d' (by decide)]
  have hnode : nodeTurn? line indent cursor byte = some (plainTurn line cursor byte) := by
    simp [nodeTurn?, hne '\'' (by decide), hne '"' (by decide), hne '-' (by decide),
      hne '[' (by decide), hne '\x7b' (by decide), hne '|' (by decide), hne '>' (by decide),
      hne '&' (by decide), hne '*' (by decide), hne '!' (by decide)]
  rw [turn?, if_neg (by simp [hgap]), if_neg fun hboth => hne '#' (by decide) hboth.1, hnode,
    hplain, ite_self]

/-- What passes a test at the start of a node in characters does so in bytes. -/
theorem nodeTurn?_plain {char : Char} {rest : List Char} {first : UInt8} {others : List UInt8}
    (hbytes : bytesOf (char :: rest) = first :: others) (hplain : PlainAt char rest)
    (before : List Char) (indent : Nat) (stance : Stance) :
    nodeTurn? (before ++ char :: rest) indent (cursorAt before stance) first =
      some (plainTurn (before ++ char :: rest) (cursorAt before stance) first) := by
  have hiff : ∀ other : Char, other.toNat < 128 → (first = other.toUInt8 ↔ char = other) :=
    fun other hother => head_bytesOf_eq_iff hother hbytes
  have hdash : ¬ (char = '-' ∧
      isSeparator (bytesOf (before ++ char :: rest)) (size before + 1) = true) := by
    rintro ⟨rfl, hset⟩
    rw [isSeparator_behind before rest (by decide), hplain.not_dash rfl] at hset
    contradiction
  obtain ⟨hampersand, hstar, hbang⟩ := hplain.not_property
  simp only [nodeTurn?, cursorAt, hiff '\'' (by decide), hiff '"' (by decide),
    hiff '-' (by decide), hiff '[' (by decide), hiff '\x7b' (by decide), hiff '|' (by decide),
    hiff '>' (by decide), hiff '&' (by decide), hiff '*' (by decide), hiff '!' (by decide)]
  rw [if_neg (by simpa using hplain.not_quote), if_neg hdash,
    if_neg (by simpa using hplain.not_bracket), if_neg hampersand, if_neg hstar, if_neg hbang]
  by_cases hblock : char = '|' ∨ char = '>'
  · have hchar : char.toNat < 128 := by rcases hblock with rfl | rfl <;> decide
    rw [if_pos hblock, slice?_behind before rest hchar]
    simp [hplain.not_block hblock]
  · rw [if_neg hblock]
    rfl

theorem plainTurn_narrow {char : Char} (hchar : char.toNat < 128) (before rest : List Char)
    (stance : Stance) :
    plainTurn (before ++ char :: rest) (cursorAt before stance) char.toUInt8 =
      .go [] (cursorAt (before ++ [char])
        { nodeStart := startsNode stance.depth char rest
          afterGap := false
          depth := depthAfter stance.depth char }) := by
  have hiff : ∀ other : Char, other.toNat < 128 → (char.toUInt8 = other.toUInt8 ↔ char = other) :=
    fun other hother => toUInt8_inj hchar hother
  simp only [plainTurn, cursorAt, isSeparator_behind before rest hchar,
    size_concat_narrow before hchar, startsNode, depthAfter, hiff ':' (by decide),
    hiff ',' (by decide), hiff ']' (by decide), hiff '\x7d' (by decide)]
  congr

/-! ## Words and references -/

theorem narrow_endsWord : Narrow [' ', '\t', ',', '[', ']', '\x7b', '\x7d'] :=
  narrow_of_all (by decide)

theorem narrow_endsTarget : Narrow [' ', '\t', '#', ',', ']', '\x7d'] :=
  narrow_of_all (by decide)

theorem countUntil_endsWord (before rest : List Char) :
    countUntil endsWord ((bytesOf (before ++ rest)).drop (size before)) =
      size (rest.takeWhile inWord) := by
  have htest : ∀ char, inWord char =
      !([' ', '\t', ',', '[', ']', '\x7b', '\x7d'].contains char) := by
    intro char
    simp [inWord, isGap, Bool.and_assoc]
  rw [Text.drop_size_bytesOf, endsWord, countUntil_bytesOf narrow_endsWord htest]

theorem countUntil_endsTarget (before rest : List Char) :
    countUntil endsTarget ((bytesOf (before ++ rest)).drop (size before)) =
      size (rest.takeWhile inTarget) := by
  have htest : ∀ char, inTarget char = !([' ', '\t', '#', ',', ']', '\x7d'].contains char) := by
    intro char
    simp [inTarget, isGap, Bool.and_assoc]
  rw [Text.drop_size_bytesOf, endsTarget, countUntil_bytesOf narrow_endsTarget htest]

theorem countWhile_isGapByte (before rest : List Char) :
    countWhile isGapByte ((bytesOf (before ++ rest)).drop (size before)) =
      size (rest.takeWhile isGap) := by
  rw [Text.drop_size_bytesOf, isGapByte, countWhile_bytesOf narrow_gap isGap_eq_contains]

theorem lt_size_iff (start : Nat) (chars : List Char) :
    start < start + size chars ↔ chars ≠ [] := by
  constructor
  · rintro hlt rfl
    simp at hlt
  · intro hne
    have := Text.size_pos hne
    omega

/-- The turn at a `!` finds the piece that the other walk takes. -/
theorem tagTurn?_tagPiece (before chars : List Char) (stance : Stance) :
    tagTurn? (before ++ chars) (cursorAt before stance) =
      some (.go (spansFrom (size before) [(tagPiece chars).1])
        (match (tagPiece chars).1 with
          | .reference gap target =>
              cursorAt (before ++ (Piece.reference gap target).source) stance.behind
          | piece => cursorAt (before ++ piece.source) stance.before)) := by
  have hpiece : (tagPiece chars).1 =
      if chars.takeWhile inWord = includeTag ∧ (chars.dropWhile inWord).takeWhile isGap ≠ [] ∧
        ((chars.dropWhile inWord).dropWhile isGap).takeWhile inTarget ≠ [] then
        .reference ((chars.dropWhile inWord).takeWhile isGap)
          (((chars.dropWhile inWord).dropWhile isGap).takeWhile inTarget)
      else .tag (chars.takeWhile inWord) := by
    simp only [tagPiece, drop_length_takeWhile]
    split <;> rfl
  -- cut the characters where the walk over bytes counts: word, gap, target
  have hword := countUntil_endsWord before chars
  have hchars := List.takeWhile_append_dropWhile (p := inWord) (l := chars)
  generalize chars.takeWhile inWord = word, chars.dropWhile inWord = behind at *
  subst hchars
  have hgap := countWhile_isGapByte (before ++ word) behind
  have hbehind := List.takeWhile_append_dropWhile (p := isGap) (l := behind)
  generalize behind.takeWhile isGap = gap, behind.dropWhile isGap = rest at *
  subst hbehind
  have htarget := countUntil_endsTarget (before ++ word ++ gap) rest
  have hrest := List.takeWhile_append_dropWhile (p := inTarget) (l := rest)
  generalize rest.takeWhile inTarget = target, rest.dropWhile inTarget = after at *
  subst hrest
  have hslice := Text.slice?_append before word (gap ++ (target ++ after))
  simp only [List.append_assoc, Text.size_append] at hword hgap htarget hslice
  rw [← Nat.add_assoc] at htarget
  simp only [tagTurn?, cursorAt, hword, hgap, htarget, hslice, Option.bind_eq_bind,
    Option.bind_some, lt_size_iff, hpiece]
  by_cases hreference : word = includeTag ∧ gap ≠ [] ∧ target ≠ []
  · rw [if_pos hreference, if_pos hreference, hreference.1]
    simp [spansFrom_cons, Piece.span?, Piece.source, Stance.behind, Nat.add_assoc]
  · rw [if_neg hreference, if_neg hreference]
    simp [spansFrom_cons, Piece.span?, Piece.source, Stance.before]

/-! ## Turns and steps -/

variable {indent : Nat} {stance next : Stance} {char : Char} {before rest after : List Char}
  {pieces : List Piece} {carry : Carry}

theorem bytesOf_narrow (hchar : char.toNat < 128) (rest : List Char) :
    bytesOf (char :: rest) = char.toUInt8 :: bytesOf rest := by
  rw [Text.bytesOf_cons, Text.utf8EncodeChar_of_lt hchar]
  rfl

theorem turn?_gap (hgap : isGap char = true) (hchar : char.toNat < 128) :
    turn? (before ++ char :: rest) indent (cursorAt before stance) char.toUInt8 =
      some (.go [] (cursorAt (before ++ [char]) { stance with afterGap := true })) := by
  rw [turn?, if_pos (by rwa [isGapByte_head (bytesOf_narrow hchar rest)])]
  simp only [cursorAt, size_concat_narrow before hchar]

/-- The characters that may begin a node other than plain text. -/
def indicators : List Char :=
  ['\'', '"', '-', '[', '\x7b', '|', '>', '&', '*', '!']

theorem narrow_indicators : Narrow indicators :=
  narrow_of_all (by decide)

/-- At the start of a node the turn at an indicator is that of the node. -/
theorem turn?_indicator (hchar : char ∈ indicators) (hstart : stance.nodeStart = true) :
    turn? (before ++ char :: rest) indent (cursorAt before stance) char.toUInt8 =
      nodeTurn? (before ++ char :: rest) indent (cursorAt before stance) char.toUInt8 := by
  have hall : (indicators.all fun char => !isGap char && decide (char ≠ '#')) = true := by decide
  have hboth := List.all_eq_true.mp hall char hchar
  simp only [Bool.and_eq_true, Bool.not_eq_true', decide_eq_true_eq] at hboth
  obtain ⟨hgap, hcomment⟩ := hboth
  have hnarrow := narrow_indicators char hchar
  rw [turn?, if_neg (by simp [isGapByte_head (bytesOf_narrow hnarrow rest), hgap]),
    if_neg fun hboth => hcomment ((toUInt8_inj hnarrow (by decide)).mp hboth.1),
    nodeStart_cursorAt, if_pos hstart]

theorem turn?_plain (hgap : isGap char = false) (hcomment : char = '#' → stance.afterGap = false)
    (hplain : stance.nodeStart = true → PlainAt char rest) (hat : AtGap before stance)
    {first : UInt8} {others : List UInt8} (hbytes : bytesOf (char :: rest) = first :: others) :
    turn? (before ++ char :: rest) indent (cursorAt before stance) first =
      some (plainTurn (before ++ char :: rest) (cursorAt before stance) first) := by
  have hnotComment : ¬ (first = '#'.toUInt8 ∧ (size before = 0 ∨
      (bytesOf (before ++ char :: rest))[size before - 1]?.any isGapByte = true)) := by
    rintro ⟨hfirst, hgaps⟩
    have hafter := hcomment ((head_bytesOf_eq_iff (by decide) hbytes).mp hfirst)
    rw [isGapByte_before, ← hat, hafter] at hgaps
    contradiction
  rw [turn?, if_neg (by simp [isGapByte_head hbytes, hgap]), place_cursorAt, if_neg hnotComment]
  split
  · next hstart => exact nodeTurn?_plain hbytes (hplain hstart) before indent stance
  · rfl

theorem closingQuote?_behind (hquote : char = '\'' ∨ char = '"') (before rest : List Char) :
    (closingQuote? char.toUInt8
        ((bytesOf (before ++ char :: rest)).drop (size before + 1))).map (· + 1) =
      (closeQuote char false rest).map fun closed => size closed.1 := by
  have hchar : char.toNat < 128 := by rcases hquote with rfl | rfl <;> decide
  have hdrop := Text.drop_size_bytesOf (before ++ [char]) rest
  rw [List.append_assoc, List.singleton_append, size_concat_narrow before hchar] at hdrop
  rw [hdrop, closingQuote?_bytesOf hquote]

/-- The turn at a quote jumps behind the closing one. -/
theorem nodeTurn?_quote (hquote : char = '\'' ∨ char = '"') :
    nodeTurn? (before ++ char :: rest) indent (cursorAt before stance) char.toUInt8 =
      some (match closeQuote char false rest with
        | some closed => .go [] (cursorAt (before ++ char :: closed.1) stance.behind)
        | none => .stop (.quoted char)) := by
  have hchar : char.toNat < 128 := by rcases hquote with rfl | rfl <;> decide
  have hbyte : char.toUInt8 = '\''.toUInt8 ∨ char.toUInt8 = '"'.toUInt8 := by
    rcases hquote with rfl | rfl <;> decide
  have hback : Char.ofNat char.toUInt8.toNat = char := by rcases hquote with rfl | rfl <;> decide
  have hbehind := closingQuote?_behind hquote before rest
  simp only [nodeTurn?, if_pos hbyte, place_cursorAt]
  cases hclose : closeQuote char false rest with
  | none =>
      rw [hclose] at hbehind
      rw [Option.map_eq_none_iff.mp hbehind, hback]
      rfl
  | some closed =>
      rw [hclose] at hbehind
      obtain ⟨count, hcount, hsize⟩ := Option.map_eq_some_iff.mp hbehind
      have hplace : size (before ++ char :: closed.1) = size before + 1 + count + 1 := by
        rw [List.append_cons, Text.size_append, size_concat_narrow before hchar]
        simp only at hsize
        omega
      rw [hcount]
      simp only [cursorAt, hplace]
      rfl

/-- Where the rest of a line is copied, the walk over bytes ends. -/
theorem turn?_stop (hstep : Advance indent stance char rest (.stop carry))
    (hat : AtGap before stance) :
    char.toNat < 128 ∧
      turn? (before ++ char :: rest) indent (cursorAt before stance) char.toUInt8 =
        some (.stop carry) := by
  cases hstep with
  | comment hafter =>
      refine ⟨by decide, ?_⟩
      rw [turn?, if_neg (by decide), place_cursorAt, if_pos]
      exact ⟨rfl, (isGapByte_before before ('#' :: rest)).mpr (hat ▸ hafter)⟩
  | openQuote hstart hquote hclose =>
      have hindicator : char ∈ indicators := by rcases hquote with rfl | rfl <;> decide
      refine ⟨narrow_indicators char hindicator, ?_⟩
      rw [turn?_indicator hindicator hstart, nodeTurn?_quote hquote, hclose]
  | block hstart hblock hheader =>
      have hindicator : char ∈ indicators := by rcases hblock with rfl | rfl <;> decide
      have hchar := narrow_indicators char hindicator
      have hslice := slice?_behind before rest hchar
      refine ⟨hchar, ?_⟩
      rw [turn?_indicator hindicator hstart, nodeTurn?, place_cursorAt, hslice]
      rcases hblock with rfl | rfl <;> simp +decide [hheader]

theorem nodeTurn?_bang (line : List Char) (cursor : Cursor) :
    nodeTurn? line indent cursor '!'.toUInt8 = tagTurn? line cursor := rfl

theorem nodeTurn?_ampersand :
    nodeTurn? (before ++ '&' :: rest) indent (cursorAt before stance) '&'.toUInt8 =
      some (.go (spansFrom (size before) [.anchor ('&' :: rest.takeWhile inWord)])
        (cursorAt (before ++ '&' :: rest.takeWhile inWord) stance)) := by
  have hcount := countUntil_endsWord before ('&' :: rest)
  have hturn : nodeTurn? (before ++ '&' :: rest) indent (cursorAt before stance) '&'.toUInt8 =
      let stop := size before +
        countUntil endsWord ((bytesOf (before ++ '&' :: rest)).drop (size before))
      some (.go [{ kind := .anchor, start := size before, stop }]
        { place := stop, nodeStart := stance.nodeStart, depth := stance.depth }) := rfl
  rw [hturn, hcount]
  simp only [cursorAt, Text.size_append]
  rfl

theorem nodeTurn?_star :
    nodeTurn? (before ++ '*' :: rest) indent (cursorAt before stance) '*'.toUInt8 =
      some (.go (spansFrom (size before) [.aliased ('*' :: rest.takeWhile inWord)])
        (cursorAt (before ++ '*' :: rest.takeWhile inWord) stance.behind)) := by
  have hcount := countUntil_endsWord before ('*' :: rest)
  have hturn : nodeTurn? (before ++ '*' :: rest) indent (cursorAt before stance) '*'.toUInt8 =
      let stop := size before +
        countUntil endsWord ((bytesOf (before ++ '*' :: rest)).drop (size before))
      some (.go [{ kind := .aliased, start := size before, stop }]
        { place := stop, nodeStart := false, depth := stance.depth }) := rfl
  rw [hturn, hcount]
  simp only [cursorAt, Text.size_append]
  rfl

theorem sourceOf_singleton (char : Char) : sourceOf [.copied char] = [char] := rfl

/-- Where a step takes pieces, the turn at the byte finds their spans and goes to the
characters behind them. -/
theorem turn?_take (hstep : Advance indent stance char rest (.take pieces next after))
    (hat : AtGap before stance) (hchar : char.toNat < 128) :
    turn? (before ++ char :: rest) indent (cursorAt before stance) char.toUInt8 =
      some (.go (spansFrom (size before) pieces)
        (cursorAt (before ++ sourceOf pieces) next)) := by
  cases hstep with
  | gap hgap => rw [turn?_gap hgap hchar]; rfl
  | quoted hstart hquote hclose =>
      have hindicator : char ∈ indicators := by rcases hquote with rfl | rfl <;> decide
      rw [turn?_indicator hindicator hstart, nodeTurn?_quote hquote, hclose, spansFrom_copied,
        sourceOf_copied]
  | dash hstart hset =>
      rw [turn?_indicator (by decide) hstart, nodeTurn?, if_neg (by decide), if_pos]
      · simp only [cursorAt, sourceOf_singleton, size_concat_narrow before hchar,
          hstart, Stance.before]
        rfl
      · exact ⟨rfl, (isSeparator_behind before rest hchar).trans hset⟩
  | bracket hstart hbracket =>
      have hindicator : char ∈ indicators := by rcases hbracket with rfl | rfl <;> decide
      -- both brackets open a level, and nothing tells them apart but their byte
      have hturn : ∀ line cursor, nodeTurn? line indent cursor char.toUInt8 =
          some (.go [] { cursor with place := cursor.place + 1, depth := cursor.depth + 1 }) := by
        rcases hbracket with rfl | rfl <;> exact fun _ _ => rfl
      rw [turn?_indicator hindicator hstart, hturn]
      simp only [cursorAt, sourceOf_singleton, size_concat_narrow before hchar, hstart,
        Stance.before]
      rfl
  | anchor hstart =>
      rw [turn?_indicator (by decide) hstart, nodeTurn?_ampersand]
      simp [cursorAt, Stance.before, hstart, Piece.source]
  | aliased hstart =>
      rw [turn?_indicator (by decide) hstart, nodeTurn?_star]
      simp [Piece.source]
  | reference hstart htext hreference =>
      -- the tag is cut out of the whole line here and out of its rest in the step
      have hturn := tagTurn?_tagPiece before ('!' :: rest) stance
      rw [htext, tagPiece_of_referenceAt hreference, ← htext] at hturn
      rw [turn?_indicator (by decide) hstart, nodeTurn?_bang, hturn]
      simp
  | tag hstart hnone =>
      have hturn := tagTurn?_tagPiece before ('!' :: rest) stance
      rw [tagPiece_of_no_reference hnone] at hturn
      rw [turn?_indicator (by decide) hstart, nodeTurn?_bang, hturn]
      simp
  | plain hgap hcomment hplain =>
      rw [turn?_plain hgap hcomment hplain hat (bytesOf_narrow hchar rest),
        plainTurn_narrow hchar]
      rfl

/-! ## The gap in front -/

theorem atGap_append {source : List Char} (hne : source ≠ [])
    (hlast : ∀ char ∈ source.getLast?, isGap char = next.afterGap) :
    AtGap (before ++ source) next := by
  obtain ⟨last, hsome⟩ := Option.ne_none_iff_exists'.mp
    (List.getLast?_eq_none_iff.not.mpr hne)
  rw [AtGap, List.getLast?_append_of_ne_nil _ hne, hsome, ← hlast last hsome]
  rfl

theorem atGap_copied (hchar : isGap char = next.afterGap) :
    AtGap (before ++ sourceOf [.copied char]) next := by
  rw [sourceOf_singleton]
  refine atGap_append (by simp) fun last hlast => ?_
  rwa [← Option.some.inj hlast]

theorem atGap_word {name : List Char} (hchar : isGap char = false) (hnext : next.afterGap = false) :
    AtGap (before ++ char :: name.takeWhile inWord) next := by
  refine atGap_append (by simp) fun last hlast => ?_
  rw [hnext]
  rcases List.mem_cons.mp (List.mem_of_mem_getLast? hlast) with rfl | hmem
  · exact hchar
  · cases hgap : isGap last with
    | false => rfl
    | true =>
        have hword := List.all_eq_true.mp List.all_takeWhile last hmem
        rw [inWord_of_isGap hgap] at hword
        contradiction

/-- A step tells the next stance whether a gap was taken last. -/
theorem atGap_take (hstep : Advance indent stance char rest (.take pieces next after)) :
    AtGap (before ++ sourceOf pieces) next := by
  cases hstep with
  | gap hgap => exact atGap_copied hgap
  | quoted hstart hquote hclose =>
      have hend := getLast?_of_closeQuote hclose
      rw [sourceOf_copied]
      refine atGap_append (by simp) fun last hlast => ?_
      rw [List.getLast?_cons, hend] at hlast
      cases hlast
      rcases hquote with rfl | rfl <;> rfl
  | dash => exact atGap_copied rfl
  | bracket hstart hbracket =>
      refine atGap_copied ?_
      rcases hbracket with rfl | rfl <;> rfl
  | anchor => rw [sourceOf_cons, sourceOf_nil, List.append_nil]; exact atGap_word (by decide) rfl
  | aliased => rw [sourceOf_cons, sourceOf_nil, List.append_nil]; exact atGap_word (by decide) rfl
  | @reference _ gap target _ hstart htext hreference =>
      -- the last character is the last one of the target
      have hsource : sourceOf [.reference gap target] = includeTag ++ gap ++ target := by
        simp [Piece.source]
      have hne : includeTag ++ gap ++ target ≠ [] := by simp [hreference.target_ne]
      rw [hsource]
      refine atGap_append hne fun last hlast => ?_
      rw [List.getLast?_append_of_ne_nil _ hreference.target_ne] at hlast
      have htarget := hreference.target_inTarget last (List.mem_of_mem_getLast? hlast)
      cases hgap : isGap last with
      | false => rfl
      | true => rw [inTarget_of_isGap hgap] at htarget; contradiction
  | tag => rw [sourceOf_cons, sourceOf_nil, List.append_nil]; exact atGap_word (by decide) rfl
  | plain hgap => exact atGap_copied hgap

/-! ## The walk -/

theorem walk?_go {line : List Char} {cursor behind : Cursor} {byte : UInt8} {spans : List Span}
    (hbyte : (bytesOf line)[cursor.place]? = some byte)
    (hturn : turn? line indent cursor byte = some (.go spans behind)) (fuel : Nat) :
    walk? line indent (fuel + 1) cursor =
      (walk? line indent fuel behind).map fun found => (spans ++ found.1, found.2) := by
  simp only [walk?, hbyte, hturn]

theorem walk?_stop {line : List Char} {cursor : Cursor} {byte : UInt8}
    (hbyte : (bytesOf line)[cursor.place]? = some byte)
    (hturn : turn? line indent cursor byte = some (.stop carry)) (fuel : Nat) :
    walk? line indent (fuel + 1) cursor = some ([], { carry, depth := cursor.depth }) := by
  simp only [walk?, hbyte, hturn]

theorem walk?_end {line : List Char} {cursor : Cursor}
    (hbyte : (bytesOf line)[cursor.place]? = none) (fuel : Nat) :
    walk? line indent fuel cursor = some ([], { carry := .nothing, depth := cursor.depth }) := by
  cases fuel with
  | zero => rfl
  | succ fuel => simp only [walk?, hbyte]

/-- The bytes of wide characters are passed one by one. -/
theorem walk?_wide {line : List Char} {wide : List UInt8} (indent : Nat) (cursor : Cursor)
    (hwide : ∀ byte ∈ wide, 128 ≤ byte.toNat)
    (hline : ∀ index, index < wide.length →
      (bytesOf line)[cursor.place + index]? = wide[index]?)
    (fuel : Nat) :
    walk? line indent (fuel + wide.length) cursor =
      walk? line indent fuel
        { cursor with
          place := cursor.place + wide.length
          nodeStart := cursor.nodeStart && wide.isEmpty } := by
  induction wide generalizing cursor with
  | nil => simp
  | cons byte wide ih =>
      have hfirst := hline 0 (by simp)
      have hturn := turn?_of_le (hwide byte (by simp)) line indent cursor
      have hgo := ih { cursor with place := cursor.place + 1, nodeStart := false }
        (fun other hother => hwide other (List.mem_cons_of_mem _ hother))
        (fun index hindex => by
          have hnext := hline (index + 1) (by simpa using hindex)
          rw [List.getElem?_cons_succ] at hnext
          rw [← hnext, Nat.add_assoc, Nat.add_comm 1])
      rw [List.length_cons, ← Nat.add_assoc, walk?_go hfirst hturn, hgo]
      simp [Nat.add_assoc, Nat.add_comm 1]

/-- A wide character is passed as a character of plain text. -/
theorem walk?_wideChar (hchar : 128 ≤ char.toNat) (fuel : Nat) :
    walk? (before ++ char :: rest) indent (fuel + char.utf8Size) (cursorAt before stance) =
      walk? (before ++ char :: rest) indent fuel
        (cursorAt (before ++ [char])
          { nodeStart := startsNode stance.depth char rest
            afterGap := false
            depth := depthAfter stance.depth char }) := by
  have hother : ∀ other : Char, other.toNat < 128 → char ≠ other := by
    rintro other hother rfl
    omega
  -- no indicator is wide, so nothing starts behind it and no bracket closes
  have hstarts : startsNode stance.depth char rest = false := by
    simp [startsNode, hother ':' (by decide), hother ',' (by decide)]
  have hdepth : depthAfter stance.depth char = stance.depth := by
    simp [depthAfter, hother ']' (by decide), hother '\x7d' (by decide)]
  have hempty : (String.utf8EncodeChar char).isEmpty = false := by
    rw [List.isEmpty_eq_false_iff]
    exact Text.utf8EncodeChar_ne_nil char
  have hline : ∀ index, index < (String.utf8EncodeChar char).length →
      (bytesOf (before ++ char :: rest))[size before + index]? =
        (String.utf8EncodeChar char)[index]? := by
    intro index hindex
    rw [Text.bytesOf_append, Text.bytesOf_cons, size,
      List.getElem?_append_right (Nat.le_add_right _ _), Nat.add_sub_cancel_left,
      List.getElem?_append_left hindex]
  have hgo := walk?_wide indent (cursorAt before stance)
    (fun byte hbyte => Text.le_of_mem_utf8EncodeChar hchar hbyte) hline fuel
  rw [String.length_utf8EncodeChar, hempty, Bool.and_false] at hgo
  rw [hgo, hstarts, hdepth]
  simp [cursorAt]

/-- The walk over the bytes behind some characters finds the spans of the pieces that
the other walk takes there. -/
theorem walk?_bytes (indent budget : Nat) (stance : Stance) (before rest : List Char) (fuel : Nat)
    (hbudget : rest.length ≤ budget) (hfuel : size rest ≤ fuel) (hat : AtGap before stance) :
    walk? (before ++ rest) indent fuel (cursorAt before stance) =
      some (spansFrom (size before) (scanBody indent budget stance rest).pieces,
        (scanBody indent budget stance rest).after) := by
  induction budget generalizing stance before rest fuel with
  | zero =>
      rw [List.length_eq_zero_iff.mp (Nat.le_zero.mp hbudget)]
      exact walk?_end (getElem?_bytesOf before []) fuel
  | succ budget ih =>
      cases rest with
      | nil => exact walk?_end (getElem?_bytesOf before []) fuel
      | cons char rest =>
          have hadvance := advance_step indent stance char rest
          have hbyte := getElem?_bytesOf before (char :: rest)
          rw [scanBody]
          cases hstep : step indent stance char rest with
          | stop carry =>
              rw [hstep] at hadvance
              -- the rest of the line is copied, so it adds no span
              obtain ⟨hchar, hturn⟩ := turn?_stop hadvance hat
              rw [bytesOf_narrow hchar, List.head?_cons] at hbyte
              obtain ⟨left, rfl⟩ : ∃ left, fuel = left + 1 :=
                Nat.exists_eq_add_of_le' (Nat.le_trans (Text.size_pos (by simp)) hfuel)
              rw [walk?_stop hbyte hturn]
              simp [Scan.copyRest, -List.map_cons]
          | take pieces next after =>
              rw [hstep] at hadvance
              have hparts := sourceOf_of_step hstep
              have hline : before ++ char :: rest = before ++ sourceOf pieces ++ after := by
                rw [← hparts, List.append_assoc]
              have hsize : size (sourceOf pieces) + size after = size (char :: rest) := by
                rw [← hparts, Text.size_append]
              have hlength : (sourceOf pieces).length + after.length = rest.length + 1 := by
                rw [← List.length_append, hparts, List.length_cons]
              have hpositive := List.length_pos_iff.mpr hadvance.sourceOf_ne_nil
              have hbytes := Text.size_pos hadvance.sourceOf_ne_nil
              have hgo := fun left hleft => ih next (before ++ sourceOf pieces) after left
                (by rw [List.length_cons] at hbudget; omega) hleft (atGap_take hadvance)
              rw [← hline] at hgo
              rcases Nat.lt_or_ge char.toNat 128 with hchar | hchar
              · -- a narrow character is one byte, and its turn is the step
                have hturn := turn?_take hadvance hat hchar
                rw [bytesOf_narrow hchar, List.head?_cons] at hbyte
                obtain ⟨left, rfl⟩ : ∃ left, fuel = left + 1 :=
                  Nat.exists_eq_add_of_le' (Nat.le_trans (Text.size_pos (by simp)) hfuel)
                rw [walk?_go hbyte hturn, hgo left (by omega)]
                simp [Scan.prepend, spansFrom_append]
              · -- a wide one is plain text, passed byte by byte
                obtain ⟨rfl, rfl, rfl⟩ := Step.take.inj (hadvance.of_le hchar)
                obtain ⟨left, rfl⟩ : ∃ left, fuel = left + char.utf8Size := by
                  rw [Text.size_cons] at hfuel
                  exact Nat.exists_eq_add_of_le' (by omega)
                rw [Text.size_cons] at hfuel
                have hwalked := hgo left (by omega)
                rw [sourceOf_singleton] at hwalked
                rw [walk?_wideChar hchar, hwalked]
                simp [Scan.prepend, spansFrom_cons, Piece.span?, Piece.source]

/-! ## A line -/

theorem size_takeWhile_space (line : List Char) :
    size (line.takeWhile (· = ' ')) = leadingSpaces line := by
  induction line with
  | nil => rfl
  | cons char rest ih =>
      by_cases hchar : char = ' '
      · subst hchar
        simp only [leadingSpaces] at ih ⊢
        simp only [decide_true, List.takeWhile_cons_of_pos, Text.size_cons, ih,
          List.length_cons]
        exact Nat.add_comm 1 _
      · simp [leadingSpaces, hchar]

theorem countWhile_space (line : List Char) :
    countWhile (isOneOf [' ']) (bytesOf line) = leadingSpaces line := by
  have hnarrow : Narrow [' '] := narrow_of_all (by decide)
  rw [countWhile_bytesOf hnarrow fun char => (by simp : decide (char = ' ') = [' '].contains char),
    size_takeWhile_space]

/-- The walk over the bytes of a line finds the spans of its pieces and leaves the same
open; it never cuts inside a character. -/
theorem scanLine?_eq {state : State} (hstate : state.carry.IsQuote) (line : List Char) :
    scanLine? state line =
      some (spansFrom 0 (scanLine state line).pieces, (scanLine state line).after) := by
  have hwalk := walk?_bytes (leadingSpaces line) line.length
    { nodeStart := true, afterGap := true, depth := state.depth } [] line (size line)
    (Nat.le_refl _) (Nat.le_refl _) rfl
  simp only [scanLine?, scanLine, countWhile_space]
  cases hcarry : state.carry with
  | nothing => exact hwalk
  | block header =>
      simp only
      split
      · simp [Scan.copyRest]
      · exact hwalk
  | quoted quote =>
      rw [hcarry] at hstate
      have hclosing := closingQuote?_bytesOf hstate line
      cases hclose : closeQuote quote false line with
      | none =>
          -- the quote stays open, and the line is copied
          rw [hclose] at hclosing
          simp [Option.map_eq_none_iff.mp hclosing, hclose, Scan.copyRest]
      | some closed =>
          obtain ⟨inside, after⟩ := closed
          rw [hclose] at hclosing
          obtain ⟨count, hcount, hsize⟩ := Option.map_eq_some_iff.mp hclosing
          have hparts := append_of_closeQuote hclose
          -- behind the closing quote no gap has been taken
          have hat :
              AtGap inside { nodeStart := false, afterGap := false, depth := state.depth } := by
            rw [AtGap, getLast?_of_closeQuote hclose]
            rcases hstate with rfl | rfl <;> rfl
          have hbehind := walk?_bytes (leadingSpaces line) line.length
            { nodeStart := false, afterGap := false, depth := state.depth } inside after (size line)
            (by rw [← hparts, List.length_append]; omega)
            (by rw [← hparts, Text.size_append]; omega) hat
          simp only [hparts, cursorAt] at hbehind hsize
          simp only [hcount, hclose, hsize, hbehind]
          simp [Scan.prepend, spansFrom_append]

end RamlCheck.Include.ByteWalk
