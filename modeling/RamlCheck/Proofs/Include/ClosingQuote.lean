import RamlCheck.Proofs.Include.ByteWalk

/-!
# Closing quotes among bytes

`closingQuote?` looks for the quote that ends a scalar among bytes, `closeQuote` among
characters.  They find the same one (`closingQuote?_bytesOf`), although the first may
jump into the middle of a character behind a backslash: what is left of a wide
character is neither a quote nor a backslash, so it is passed byte by byte.
-/

namespace RamlCheck.Include.ByteWalk

open Text (bytesOf size)

/-! ## The quote among bytes -/

/-- The bytes of wide characters are neither quotes nor backslashes. -/
theorem closingQuote?_append_of_le {quote : Char} (hquote : quote.toNat < 128)
    {wide : List UInt8} (hwide : ∀ byte ∈ wide, 128 ≤ byte.toNat) (bytes : List UInt8) :
    closingQuote? quote.toUInt8 (wide ++ bytes) =
      (closingQuote? quote.toUInt8 bytes).map (· + wide.length) := by
  induction wide with
  | nil => simp
  | cons byte wide ih =>
      have hbyte := hwide byte (by simp)
      have hne := toUInt8_ne_of_le hquote hbyte
      have hslash : '\\'.toUInt8 ≠ byte := toUInt8_ne_of_le (by decide) hbyte
      have hrest := ih fun other hother => hwide other (List.mem_cons_of_mem _ hother)
      cases hmore : wide ++ bytes with
      | nil =>
          rw [hmore] at hrest
          obtain ⟨rfl, rfl⟩ := List.append_eq_nil_iff.mp hmore
          simp [closingQuote?, hne.symm, hslash.symm]
      | cons next others =>
          rw [List.cons_append, hmore, closingQuote?, if_neg (by simp [hslash.symm]),
            if_neg hne.symm, ← hmore, hrest, Option.map_map]
          rfl

theorem head_bytesOf_eq_iff {quote : Char} (hquote : quote.toNat < 128) {char : Char}
    {rest : List Char} {first : UInt8} {others : List UInt8}
    (hbytes : bytesOf (char :: rest) = first :: others) :
    first = quote.toUInt8 ↔ char = quote := by
  rw [Text.bytesOf_cons] at hbytes
  rcases Nat.lt_or_ge char.toNat 128 with hchar | hchar
  · rw [Text.utf8EncodeChar_of_lt hchar] at hbytes
    obtain ⟨rfl, -⟩ := List.cons.inj hbytes
    exact toUInt8_inj hchar hquote
  · have hfirst : first ∈ String.utf8EncodeChar char := by
      obtain ⟨byte, tail, htail⟩ := List.exists_cons_of_ne_nil (Text.utf8EncodeChar_ne_nil char)
      rw [htail] at hbytes ⊢
      obtain ⟨rfl, -⟩ := List.cons.inj hbytes
      simp
    have hwide := Text.le_of_mem_utf8EncodeChar hchar hfirst
    constructor
    · intro heq
      exact absurd heq.symm (toUInt8_ne_of_le hquote hwide)
    · rintro rfl
      omega

/-- A character that is wide, or neither the quote nor an escape, is passed. -/
theorem closingQuote?_pass {quote char : Char} (hquote : quote.toNat < 128)
    (hother : char ≠ quote) (hslash : quote = '"' → char ≠ '\\') (rest : List Char) :
    closingQuote? quote.toUInt8 (bytesOf (char :: rest)) =
      (closingQuote? quote.toUInt8 (bytesOf rest)).map (· + char.utf8Size) := by
  have hsize := String.length_utf8EncodeChar char
  rcases Nat.lt_or_ge char.toNat 128 with hchar | hchar
  · have hne : char.toUInt8 ≠ quote.toUInt8 := by rwa [Ne, toUInt8_inj hchar hquote]
    have hescape : ¬ (quote.toUInt8 = '"'.toUInt8 ∧ char.toUInt8 = '\\'.toUInt8) := by
      rw [toUInt8_inj hquote (by decide), toUInt8_inj hchar (by decide)]
      exact fun hboth => hslash hboth.1 hboth.2
    rw [Text.bytesOf_cons, Text.utf8EncodeChar_of_lt hchar]
    rw [Text.utf8EncodeChar_of_lt hchar] at hsize
    rw [← hsize]
    cases hbytes : bytesOf rest with
    | nil =>
        simp only [List.cons_append, List.nil_append, closingQuote?, if_neg hescape, if_neg hne,
          Option.map_none]
    | cons first others =>
        simp only [List.cons_append, List.nil_append, closingQuote?, if_neg hescape, if_neg hne,
          List.length_singleton]
  · rw [Text.bytesOf_cons, closingQuote?_append_of_le hquote fun byte hbyte =>
      Text.le_of_mem_utf8EncodeChar hchar hbyte, hsize]

/-- An escape takes a whole character with it: the jump over two bytes may end inside
it, but what is left of it says nothing. -/
theorem closingQuote?_escape {quote : Char} (hquote : quote.toNat < 128) (char : Char)
    (rest : List Char) {first : UInt8} {others : List UInt8}
    (hbytes : bytesOf (char :: rest) = first :: others) :
    (closingQuote? quote.toUInt8 others).map (· + 1) =
      (closingQuote? quote.toUInt8 (bytesOf rest)).map (· + char.utf8Size) := by
  rw [Text.bytesOf_cons] at hbytes
  have hsize := String.length_utf8EncodeChar char
  obtain ⟨byte, tail, htail⟩ := List.exists_cons_of_ne_nil (Text.utf8EncodeChar_ne_nil char)
  have hwide : ∀ other ∈ tail, 128 ≤ other.toNat := by
    intro other hother
    rcases Nat.lt_or_ge char.toNat 128 with hchar | hchar
    · rw [Text.utf8EncodeChar_of_lt hchar] at htail
      obtain ⟨-, rfl⟩ := List.cons.inj htail
      simp at hother
    · exact Text.le_of_mem_utf8EncodeChar hchar (by rw [htail]; exact List.mem_cons_of_mem _ hother)
  rw [htail, List.cons_append] at hbytes
  obtain ⟨-, rfl⟩ := List.cons.inj hbytes
  rw [htail, List.length_cons] at hsize
  rw [closingQuote?_append_of_le hquote hwide, Option.map_map, ← hsize]
  rfl

/-! ## The quote among characters -/

theorem closeQuote_escape (char : Char) (rest : List Char) :
    closeQuote '"' false ('\\' :: char :: rest) =
      (closeQuote '"' false rest).map fun closed => ('\\' :: char :: closed.1, closed.2) := by
  simp [closeQuote, Option.map_map, Function.comp_def]

theorem closeQuote_pair (rest : List Char) :
    closeQuote '\'' false ('\'' :: '\'' :: rest) =
      (closeQuote '\'' false rest).map fun closed => ('\'' :: '\'' :: closed.1, closed.2) := by
  simp [closeQuote, Option.map_map, Function.comp_def]

theorem closeQuote_end {quote : Char} {rest : List Char}
    (hpair : quote = '\'' → rest.head? ≠ some '\'') :
    closeQuote quote false (quote :: rest) = some ([quote], rest) := by
  rw [closeQuote, if_pos]
  simpa [-not_and, not_and_or, imp_iff_not_or] using hpair

theorem closeQuote_pass {quote char : Char} (hother : char ≠ quote)
    (hslash : quote = '"' → char ≠ '\\') (rest : List Char) :
    closeQuote quote false (char :: rest) =
      (closeQuote quote false rest).map fun closed => (char :: closed.1, closed.2) := by
  have htakes : (!false && ((quote = '"' && char = '\\') || char = quote)) = false := by
    simpa [hother] using hslash
  rw [closeQuote, if_neg (by simp [hother]), htakes]

/-- The text in quotes ends with the closing quote. -/
theorem getLast?_of_closeQuote {quote : Char} {taken : Bool} {chars inside after : List Char}
    (hclose : closeQuote quote taken chars = some (inside, after)) :
    inside.getLast? = some quote := by
  induction chars generalizing taken inside with
  | nil => simp [closeQuote] at hclose
  | cons char rest ih =>
      simp only [closeQuote] at hclose
      split at hclose
      · next hquote =>
        simp only [Bool.and_eq_true, decide_eq_true_eq] at hquote
        cases hclose
        simp [hquote.1.2]
      · obtain ⟨⟨others, behind⟩, hothers, heq⟩ := Option.map_eq_some_iff.mp hclose
        cases heq
        have hlast := ih hothers
        cases others with
        | nil => simp at hlast
        | cons first others => rwa [List.getLast?_cons_cons]

/-! ## Agreement -/

/-- Where two characters are passed at once, the walks go on agreeing. -/
theorem closingQuote?_jump {quote char next : Char} {rest : List Char} {first : UInt8}
    {others : List UInt8} (hquote : quote.toNat < 128) (hchar : char.toNat < 128)
    (hbytes : bytesOf (next :: rest) = first :: others)
    (hrest : (closingQuote? quote.toUInt8 (bytesOf rest)).map (· + 1) =
      (closeQuote quote false rest).map fun closed => size closed.1) :
    ((closingQuote? quote.toUInt8 others).map (· + 2)).map (· + 1) =
      ((closeQuote quote false rest).map fun closed =>
        (char :: next :: closed.1, closed.2)).map fun closed => size closed.1 := by
  have hescape := closingQuote?_escape hquote next rest hbytes
  have hsize := String.length_utf8EncodeChar char
  rw [Text.utf8EncodeChar_of_lt hchar] at hsize
  cases hafter : closingQuote? quote.toUInt8 (bytesOf rest) with
  | none =>
      rw [hafter] at hescape hrest
      rw [Option.map_eq_none_iff.mp hescape, Option.map_eq_none_iff.mp hrest.symm]
      rfl
  | some count =>
      rw [hafter, Option.map_some] at hescape hrest
      obtain ⟨behind, hbehind, hcount⟩ := Option.map_eq_some_iff.mp hescape
      obtain ⟨closed, hclosed, hlength⟩ := Option.map_eq_some_iff.mp hrest.symm
      rw [hbehind, hclosed]
      simp only [Option.map_some, Option.some.injEq, Text.size_cons, ← hsize, hlength,
        List.length_singleton]
      omega

/-- Where one character is passed, the walks go on agreeing. -/
theorem closingQuote?_next {quote char : Char} {rest : List Char}
    (hrest : (closingQuote? quote.toUInt8 (bytesOf rest)).map (· + 1) =
      (closeQuote quote false rest).map fun closed => size closed.1) :
    ((closingQuote? quote.toUInt8 (bytesOf rest)).map (· + char.utf8Size)).map (· + 1) =
      ((closeQuote quote false rest).map fun closed =>
        (char :: closed.1, closed.2)).map fun closed => size closed.1 := by
  cases hcount : closingQuote? quote.toUInt8 (bytesOf rest) with
  | none =>
      rw [hcount] at hrest
      rw [Option.map_eq_none_iff.mp hrest.symm]
      rfl
  | some count =>
      rw [hcount] at hrest
      obtain ⟨closed, hclosed, hlength⟩ := Option.map_eq_some_iff.mp hrest.symm
      rw [hclosed]
      simp only [Option.map_some, Option.some.injEq, Text.size_cons, hlength]
      omega

/-- The closing quote is the same for both walks: one finds how many bytes stand in
front of it, the other the text that it ends. -/
theorem closingQuote?_bytesOf {quote : Char} (hquote : quote = '\'' ∨ quote = '"') :
    ∀ chars : List Char,
      (closingQuote? quote.toUInt8 (bytesOf chars)).map (· + 1) =
        (closeQuote quote false chars).map fun closed => size closed.1
  | [] => rfl
  | [char] => by
      have hnarrow : quote.toNat < 128 := by rcases hquote with rfl | rfl <;> decide
      by_cases hslash : quote = '"' ∧ char = '\\'
      · obtain ⟨rfl, rfl⟩ := hslash
        decide
      by_cases hchar : char = quote
      · subst hchar
        rcases hquote with rfl | rfl <;> decide
      · have hescape : quote = '"' → char ≠ '\\' := fun hq hc => hslash ⟨hq, hc⟩
        rw [closingQuote?_pass hnarrow hchar hescape, closeQuote_pass hchar hescape]
        rfl
  | char :: next :: rest => by
      have hnarrow : quote.toNat < 128 := by rcases hquote with rfl | rfl <;> decide
      have hrest := closingQuote?_bytesOf hquote rest
      have hnext := closingQuote?_bytesOf hquote (next :: rest)
      have hne : next :: rest ≠ [] := by simp
      obtain ⟨first, others, hbytes⟩ := List.exists_cons_of_ne_nil (Text.bytesOf_ne_nil hne)
      have hfirst := head_bytesOf_eq_iff hnarrow hbytes
      by_cases hslash : quote = '"' ∧ char = '\\'
      · -- the escaped character is passed, whatever it is
        obtain ⟨rfl, rfl⟩ := hslash
        have hjump : closingQuote? '"'.toUInt8 (bytesOf ('\\' :: next :: rest)) =
            (closingQuote? '"'.toUInt8 others).map (· + 2) := by
          rw [Text.bytesOf_cons, hbytes]
          rfl
        rw [hjump, closeQuote_escape]
        exact closingQuote?_jump (by decide) (by decide) hbytes hrest
      by_cases hpair : char = quote ∧ quote = '\'' ∧ next = '\''
      · -- two quotes stand for one, and both are passed
        obtain ⟨rfl, rfl, rfl⟩ := hpair
        have hjump : closingQuote? '\''.toUInt8 (bytesOf ('\'' :: '\'' :: rest)) =
            (closingQuote? '\''.toUInt8 others).map (· + 2) := by
          rw [Text.bytesOf_cons, hbytes, hfirst.mpr rfl]
          rfl
        rw [hjump, closeQuote_pair]
        exact closingQuote?_jump (by decide) (by decide) hbytes hrest
      by_cases hchar : char = quote
      · subst hchar
        -- the quote ends the text: what follows is no second one
        have hsingle : ¬ (char.toUInt8 = '\''.toUInt8 ∧ first = char.toUInt8) := by
          rw [toUInt8_inj hnarrow (by decide), hfirst]
          exact fun hboth => hpair ⟨rfl, hboth.1, hboth.2.trans hboth.1⟩
        have hescape : ¬ (char.toUInt8 = '"'.toUInt8 ∧ char.toUInt8 = '\\'.toUInt8) := by
          rwa [toUInt8_inj hnarrow (by decide), toUInt8_inj hnarrow (by decide)]
        have hsize := String.length_utf8EncodeChar char
        rw [Text.utf8EncodeChar_of_lt hnarrow] at hsize
        rw [closeQuote_end fun hq hhead => hpair ⟨rfl, hq, by simpa using hhead⟩,
          Text.bytesOf_cons, hbytes, Text.utf8EncodeChar_of_lt hnarrow, List.cons_append,
          List.nil_append, closingQuote?, if_neg hescape, if_pos rfl, if_neg hsingle]
        simp [← hsize]
      · have hescape : quote = '"' → char ≠ '\\' := fun hq hc => hslash ⟨hq, hc⟩
        rw [closingQuote?_pass hnarrow hchar hescape, closeQuote_pass hchar hescape]
        exact closingQuote?_next hnext

end RamlCheck.Include.ByteWalk
