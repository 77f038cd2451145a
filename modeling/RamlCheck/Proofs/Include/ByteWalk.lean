import RamlCheck.Proofs.Include.Span

/-!
# Walking over bytes

The same walk over a line can be made on its bytes, with places counted in bytes: it
jumps two bytes over an escape, behind a closing quote, to the end of a word or a
target, and otherwise to the next byte, wherever that lies.  Where the walk needs a
text it cuts the line, which fails inside a character.

Every byte that the walk compares with is a character below 128, so it finds the same
classes of characters in front of it (`countWhile_bytesOf`, `countUntil_bytesOf`).
-/

namespace RamlCheck.Include.ByteWalk

open Text (bytesOf size slice?)

/-! ## Classes of bytes -/

/-- Whether a byte is one of some characters. -/
def isOneOf (chars : List Char) (byte : UInt8) : Bool :=
  chars.any fun char => char.toUInt8 = byte

/-- A space or a tab. -/
def isGapByte : UInt8 → Bool :=
  isOneOf [' ', '\t']

/-- The bytes that end a word. -/
def endsWord : UInt8 → Bool :=
  isOneOf [' ', '\t', ',', '[', ']', '\x7b', '\x7d']

/-- The bytes that end a target. -/
def endsTarget : UInt8 → Bool :=
  isOneOf [' ', '\t', '#', ',', ']', '\x7d']

/-- How many bytes in front of some bytes fail a test. -/
def countUntil (test : UInt8 → Bool) (bytes : List UInt8) : Nat :=
  (bytes.takeWhile fun byte => !test byte).length

/-- How many bytes in front of some bytes pass a test. -/
def countWhile (test : UInt8 → Bool) (bytes : List UInt8) : Nat :=
  (bytes.takeWhile test).length

/-- How many bytes stand in front of the closing quote.  In double quotes a backslash
takes the next byte with it, in single quotes the first of two quotes does. -/
def closingQuote? (quote : UInt8) : List UInt8 → Option Nat
  | [] => none
  | [byte] =>
      if quote = '"'.toUInt8 ∧ byte = '\\'.toUInt8 then none
      else if byte = quote then some 0 else none
  | byte :: next :: rest =>
      if quote = '"'.toUInt8 ∧ byte = '\\'.toUInt8 then (closingQuote? quote rest).map (· + 2)
      else if byte = quote then
        if quote = '\''.toUInt8 ∧ next = quote then (closingQuote? quote rest).map (· + 2)
        else some 0
      else (closingQuote? quote (next :: rest)).map (· + 1)

/-- Whether an indicator is set off by what stands at some place. -/
def isSeparator (bytes : List UInt8) (place : Nat) : Bool :=
  bytes[place]?.all isGapByte

/-! ## The walk -/

/-- Where a walk stands in the bytes of a line. -/
structure Cursor where
  place : Nat
  nodeStart : Bool
  depth : Nat
  deriving DecidableEq, Repr

/-- What a turn of the walk brings about: the walk ends, or some spans are found and
it goes on elsewhere. -/
inductive Turn
  | stop (carry : Carry)
  | go (spans : List Span) (next : Cursor)
  deriving DecidableEq, Repr

/-- The turn at a byte of plain text. -/
def plainTurn (line : List Char) (cursor : Cursor) (byte : UInt8) : Turn :=
  .go []
    { place := cursor.place + 1
      nodeStart := (byte = ':'.toUInt8 && isSeparator (bytesOf line) (cursor.place + 1))
        || (byte = ','.toUInt8 && decide (0 < cursor.depth))
      depth := if byte = ']'.toUInt8 ∨ byte = '\x7d'.toUInt8 then cursor.depth - 1
        else cursor.depth }

/-- The turn at a `!`. -/
def tagTurn? (line : List Char) (cursor : Cursor) : Option Turn := do
  let bytes := bytesOf line
  let stop := cursor.place + countUntil endsWord (bytes.drop cursor.place)
  let gapStop := stop + countWhile isGapByte (bytes.drop stop)
  let targetStop := gapStop + countUntil endsTarget (bytes.drop gapStop)
  let word ← slice? line cursor.place stop
  if word = includeTag ∧ stop < gapStop ∧ gapStop < targetStop then
    return .go
      [{ kind := .reference gapStop targetStop, start := cursor.place, stop := targetStop }]
      { cursor with place := targetStop, nodeStart := false }
  else
    return .go [{ kind := .tag, start := cursor.place, stop }]
      { cursor with place := stop, nodeStart := true }

/-- The turn at a byte where a node can start. -/
def nodeTurn? (line : List Char) (indent : Nat) (cursor : Cursor) (byte : UInt8) :
    Option Turn := do
  let bytes := bytesOf line
  let stop := cursor.place + countUntil endsWord (bytes.drop cursor.place)
  if byte = '\''.toUInt8 ∨ byte = '"'.toUInt8 then
    match closingQuote? byte (bytes.drop (cursor.place + 1)) with
    | some count =>
        return .go [] { cursor with place := cursor.place + 1 + count + 1, nodeStart := false }
    | none => return .stop (.quoted (Char.ofNat byte.toNat))
  else if byte = '-'.toUInt8 ∧ isSeparator bytes (cursor.place + 1) = true then
    return .go [] { cursor with place := cursor.place + 1 }
  else if byte = '['.toUInt8 ∨ byte = '\x7b'.toUInt8 then
    return .go [] { cursor with place := cursor.place + 1, depth := cursor.depth + 1 }
  else if byte = '|'.toUInt8 ∨ byte = '>'.toUInt8 then
    let rest ← slice? line (cursor.place + 1) (size line)
    return if isBlockHeader rest then .stop (.block indent) else plainTurn line cursor byte
  else if byte = '&'.toUInt8 then
    return .go [{ kind := .anchor, start := cursor.place, stop }] { cursor with place := stop }
  else if byte = '*'.toUInt8 then
    return .go [{ kind := .aliased, start := cursor.place, stop }]
      { cursor with place := stop, nodeStart := false }
  else if byte = '!'.toUInt8 then tagTurn? line cursor
  else return plainTurn line cursor byte

/-- The turn at a byte. -/
def turn? (line : List Char) (indent : Nat) (cursor : Cursor) (byte : UInt8) : Option Turn :=
  if isGapByte byte then some (.go [] { cursor with place := cursor.place + 1 })
  else if byte = '#'.toUInt8 ∧
      (cursor.place = 0 ∨ (bytesOf line)[cursor.place - 1]?.any isGapByte = true) then
    some (.stop .nothing)
  else if cursor.nodeStart then nodeTurn? line indent cursor byte
  else some (plainTurn line cursor byte)

/-- The spans of a line from some place on, and what the line leaves open. -/
def walk? (line : List Char) (indent : Nat) : Nat → Cursor → Option (List Span × State)
  | 0, cursor => some ([], { carry := .nothing, depth := cursor.depth })
  | fuel + 1, cursor =>
      match (bytesOf line)[cursor.place]? with
      | none => some ([], { carry := .nothing, depth := cursor.depth })
      | some byte =>
          match turn? line indent cursor byte with
          | none => none
          | some (.stop carry) => some ([], { carry, depth := cursor.depth })
          | some (.go spans next) =>
              (walk? line indent fuel next).map fun found => (spans ++ found.1, found.2)

/-- The spans of a line, and what it leaves open. -/
def scanLine? (state : State) (line : List Char) : Option (List Span × State) :=
  let bytes := bytesOf line
  let indent := countWhile (isOneOf [' ']) bytes
  let start : Cursor := { place := 0, nodeStart := true, depth := state.depth }
  match state.carry with
  | .nothing => walk? line indent (size line) start
  | .block header =>
      if Text.isBlankText line || decide (header < indent) then some ([], state)
      else walk? line indent (size line) start
  | .quoted quote =>
      match closingQuote? quote.toUInt8 bytes with
      | none => some ([], state)
      | some count =>
          walk? line indent (size line) { start with place := count + 1, nodeStart := false }

/-- The spans of the lines of a text. -/
def scanLines? : State → List (List Char) → Option (List (List Span))
  | _, [] => some []
  | state, line :: rest => do
      let (spans, after) ← scanLine? state (Text.splitEnding line).1
      let others ← scanLines? after rest
      return spans :: others

/-! ## Bytes and characters of a class -/

/-- Some characters that are one byte each. -/
def Narrow (chars : List Char) : Prop :=
  ∀ char ∈ chars, char.toNat < 128

theorem narrow_of_all {chars : List Char}
    (hall : (chars.all fun char => char.toNat < 128) = true) : Narrow chars :=
  fun char hchar => of_decide_eq_true (List.all_eq_true.mp hall char hchar)

theorem toUInt8_inj {first second : Char} (hfirst : first.toNat < 128)
    (hsecond : second.toNat < 128) : first.toUInt8 = second.toUInt8 ↔ first = second := by
  constructor
  · intro hbyte
    have hnat := congrArg UInt8.toNat hbyte
    have hvalue : ∀ char : Char, char.toNat < 128 → char.toUInt8.toNat = char.toNat := by
      intro char hchar
      show char.val.toNat % 256 = char.val.toNat
      exact Nat.mod_eq_of_lt (Nat.lt_trans hchar (by decide))
    rw [hvalue _ hfirst, hvalue _ hsecond] at hnat
    exact Char.toNat_inj.mp hnat
  · rintro rfl
    rfl

theorem toUInt8_ne_of_le {char : Char} (hchar : char.toNat < 128) {byte : UInt8}
    (hbyte : 128 ≤ byte.toNat) : char.toUInt8 ≠ byte := by
  rintro rfl
  have : char.toUInt8.toNat = char.val.toNat % 256 := rfl
  have : char.toNat = char.val.toNat := rfl
  omega

theorem isOneOf_toUInt8 {chars : List Char} (hchars : Narrow chars) {char : Char}
    (hchar : char.toNat < 128) : isOneOf chars char.toUInt8 = chars.contains char := by
  rw [Bool.eq_iff_iff, isOneOf, List.any_eq_true, List.contains_iff_mem]
  constructor
  · rintro ⟨other, hother, heq⟩
    rwa [(toUInt8_inj (hchars other hother) hchar).mp (of_decide_eq_true heq)] at hother
  · exact fun hmem => ⟨char, hmem, decide_eq_true rfl⟩

theorem isOneOf_of_le {chars : List Char} (hchars : Narrow chars) {byte : UInt8}
    (hbyte : 128 ≤ byte.toNat) : isOneOf chars byte = false := by
  rw [isOneOf, List.any_eq_false]
  exact fun char hchar heq =>
    toUInt8_ne_of_le (hchars char hchar) hbyte (of_decide_eq_true heq)

/-- The bytes in front that belong to a class are those of the characters in front
that do. -/
theorem countWhile_bytesOf {chars : List Char} (hchars : Narrow chars) {test : Char → Bool}
    (htest : ∀ char, test char = chars.contains char) (text : List Char) :
    countWhile (isOneOf chars) (bytesOf text) = size (text.takeWhile test) := by
  induction text with
  | nil => rfl
  | cons char rest ih =>
      rcases Nat.lt_or_ge char.toNat 128 with hchar | hchar
      · rw [Text.bytesOf_cons, Text.utf8EncodeChar_of_lt hchar, List.takeWhile_cons, htest,
          ← isOneOf_toUInt8 hchars hchar]
        cases hmem : isOneOf chars char.toUInt8 with
        | false => simp [countWhile, hmem]
        | true =>
            have hsize := String.length_utf8EncodeChar char
            rw [Text.utf8EncodeChar_of_lt hchar] at hsize
            simp only [countWhile] at ih
            simp [countWhile, hmem, ih, ← hsize, Nat.add_comm]
      · -- no byte of a wide character is the byte of a narrow one
        have hnot : chars.contains char = false := by
          rw [← Bool.not_eq_true, List.contains_iff_mem]
          exact fun hmem => absurd (hchars char hmem) (by omega)
        obtain ⟨byte, others, hbytes⟩ :=
          List.exists_cons_of_ne_nil (Text.utf8EncodeChar_ne_nil char)
        have hmem : byte ∈ String.utf8EncodeChar char := by simp [hbytes]
        have hbyte := isOneOf_of_le hchars (Text.le_of_mem_utf8EncodeChar hchar hmem)
        rw [Text.bytesOf_cons, hbytes, List.takeWhile_cons, htest, hnot]
        simp [countWhile, hbyte]

/-- The bytes in front that do not belong to a class are those of the characters in
front that do not. -/
theorem countUntil_bytesOf {chars : List Char} (hchars : Narrow chars) {test : Char → Bool}
    (htest : ∀ char, test char = !chars.contains char) (text : List Char) :
    countUntil (isOneOf chars) (bytesOf text) = size (text.takeWhile test) := by
  induction text with
  | nil => rfl
  | cons char rest ih =>
      simp only [countUntil] at ih ⊢
      rcases Nat.lt_or_ge char.toNat 128 with hchar | hchar
      · rw [Text.bytesOf_cons, Text.utf8EncodeChar_of_lt hchar, List.takeWhile_cons, htest,
          ← isOneOf_toUInt8 hchars hchar]
        cases hmem : isOneOf chars char.toUInt8 with
        | true => simp [hmem]
        | false =>
            have hsize := String.length_utf8EncodeChar char
            rw [Text.utf8EncodeChar_of_lt hchar] at hsize
            simp [hmem, ih, ← hsize, Nat.add_comm]
      · -- no byte of a wide character is the byte of a narrow one
        have hnot : chars.contains char = false := by
          rw [← Bool.not_eq_true, List.contains_iff_mem]
          exact fun hmem => absurd (hchars char hmem) (by omega)
        have hall : ∀ byte ∈ String.utf8EncodeChar char, (!isOneOf chars byte) = true := by
          intro byte hbyte
          rw [isOneOf_of_le hchars (Text.le_of_mem_utf8EncodeChar hchar hbyte)]
          rfl
        rw [Text.bytesOf_cons, List.takeWhile_append_of_pos hall, List.takeWhile_cons, htest, hnot]
        simp [ih]

end RamlCheck.Include.ByteWalk
