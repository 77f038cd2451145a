import Mathlib.Data.List.Basic
import RamlCheck.Text.Basic

/-!
# Places of a text counted in bytes

A text can be cut at places counted in bytes, but only between characters.  `slice?`
is such a cut and fails at any other place; between characters it succeeds
(`slice?_append`).

A byte below 128 is a character by itself and no part of another one
(`utf8EncodeChar_of_lt`, `le_of_mem_utf8EncodeChar`), so looking for such a
character among the bytes never ends inside a character.
-/

namespace RamlCheck.Text

/-- The bytes of some characters. -/
def bytesOf (chars : List Char) : List UInt8 :=
  chars.flatMap String.utf8EncodeChar

/-- How many bytes some characters take. -/
def size (chars : List Char) : Nat :=
  (bytesOf chars).length

@[simp] theorem bytesOf_nil : bytesOf [] = [] := rfl

@[simp] theorem bytesOf_cons (char : Char) (rest : List Char) :
    bytesOf (char :: rest) = String.utf8EncodeChar char ++ bytesOf rest := rfl

@[simp] theorem bytesOf_append (front rest : List Char) :
    bytesOf (front ++ rest) = bytesOf front ++ bytesOf rest := by
  simp [bytesOf]

@[simp] theorem size_nil : size [] = 0 := rfl

@[simp] theorem size_cons (char : Char) (rest : List Char) :
    size (char :: rest) = char.utf8Size + size rest := by
  simp [size]

@[simp] theorem size_append (front rest : List Char) :
    size (front ++ rest) = size front + size rest := by
  simp [size]

theorem size_pos {chars : List Char} (hne : chars ≠ []) : 0 < size chars := by
  cases chars with
  | nil => exact absurd rfl hne
  | cons char rest =>
      have := char.utf8Size_pos
      rw [size_cons]
      omega

theorem bytesOf_ne_nil {chars : List Char} (hne : chars ≠ []) : bytesOf chars ≠ [] :=
  List.length_pos_iff.mp (size_pos hne)

theorem drop_size_bytesOf (front rest : List Char) :
    (bytesOf (front ++ rest)).drop (size front) = bytesOf rest := by
  rw [bytesOf_append, size, List.drop_left]

/-! ## Bytes that are characters -/

/-- A character below 128 is one byte. -/
theorem utf8EncodeChar_of_lt {char : Char} (hchar : char.toNat < 128) :
    String.utf8EncodeChar char = [char.toUInt8] := by
  have hval : char.val ≤ 127 := by
    rw [UInt32.le_iff_toNat_le]
    exact Nat.le_of_lt_succ hchar
  rw [String.utf8EncodeChar_eq_singleton (Char.utf8Size_eq_one_iff.mpr hval)]
  rfl

/-- The bytes of any other character are 128 or above. -/
theorem le_of_mem_utf8EncodeChar {char : Char} (hchar : 128 ≤ char.toNat) {byte : UInt8}
    (hbyte : byte ∈ String.utf8EncodeChar char) : 128 ≤ byte.toNat := by
  have hbit : ∀ value mask : UInt8, 128 ≤ mask.toNat → 128 ≤ (value ||| mask).toNat := by
    intro value mask hmask
    rw [UInt8.toNat_or]
    exact Nat.le_trans hmask Nat.right_le_or
  have hne : char.utf8Size ≠ 1 := by
    intro hone
    have hval := Char.utf8Size_eq_one_iff.mp hone
    rw [UInt32.le_iff_toNat_le] at hval
    have : char.val.toNat ≤ 127 := hval
    have : char.toNat = char.val.toNat := rfl
    omega
  rcases char.utf8Size_eq with hsize | hsize | hsize | hsize
  · exact absurd hsize hne
  · rw [String.utf8EncodeChar_eq_cons_cons hsize] at hbyte
    simp only [List.mem_cons, List.not_mem_nil, or_false] at hbyte
    rcases hbyte with rfl | rfl <;> exact hbit _ _ (by decide)
  · rw [String.utf8EncodeChar_eq_cons_cons_cons hsize] at hbyte
    simp only [List.mem_cons, List.not_mem_nil, or_false] at hbyte
    rcases hbyte with rfl | rfl | rfl <;> exact hbit _ _ (by decide)
  · rw [String.utf8EncodeChar_eq_cons_cons_cons_cons hsize] at hbyte
    simp only [List.mem_cons, List.not_mem_nil, or_false] at hbyte
    rcases hbyte with rfl | rfl | rfl | rfl <;> exact hbit _ _ (by decide)

theorem utf8EncodeChar_ne_nil (char : Char) : String.utf8EncodeChar char ≠ [] := by
  intro hnil
  have hlength := String.length_utf8EncodeChar char
  have := char.utf8Size_pos
  rw [hnil] at hlength
  simp at hlength
  omega

/-! ## Slices -/

/-- What follows some bytes of a text, unless they end inside a character or behind
the text. -/
def dropBytes? : Nat → List Char → Option (List Char)
  | 0, chars => some chars
  | _ + 1, [] => none
  | count + 1, char :: rest =>
      if char.utf8Size ≤ count + 1 then dropBytes? (count + 1 - char.utf8Size) rest else none

/-- The first bytes of a text as characters, unless they end inside a character or
behind the text. -/
def takeBytes? : Nat → List Char → Option (List Char)
  | 0, _ => some []
  | _ + 1, [] => none
  | count + 1, char :: rest =>
      if char.utf8Size ≤ count + 1 then
        (takeBytes? (count + 1 - char.utf8Size) rest).map (char :: ·)
      else none

/-- The characters between two places of a text counted in bytes.  There is nothing
if the places are out of order, behind the text or inside a character. -/
def slice? (chars : List Char) (start stop : Nat) : Option (List Char) :=
  if start ≤ stop then (dropBytes? start chars).bind (takeBytes? (stop - start)) else none

@[simp] theorem dropBytes?_size (front rest : List Char) :
    dropBytes? (size front) (front ++ rest) = some rest := by
  induction front with
  | nil => cases rest <;> rfl
  | cons char front ih =>
      obtain ⟨count, hcount⟩ : ∃ count, char.utf8Size + size front = count + 1 :=
        Nat.exists_eq_succ_of_ne_zero (by have := char.utf8Size_pos; omega)
      have hrest : count + 1 - char.utf8Size = size front := by omega
      rw [List.cons_append, size_cons, hcount, dropBytes?, if_pos (by omega), hrest, ih]

@[simp] theorem takeBytes?_size (front rest : List Char) :
    takeBytes? (size front) (front ++ rest) = some front := by
  induction front with
  | nil => cases rest <;> rfl
  | cons char front ih =>
      obtain ⟨count, hcount⟩ : ∃ count, char.utf8Size + size front = count + 1 :=
        Nat.exists_eq_succ_of_ne_zero (by have := char.utf8Size_pos; omega)
      have hrest : count + 1 - char.utf8Size = size front := by omega
      rw [List.cons_append, size_cons, hcount, takeBytes?, if_pos (by omega), hrest, ih]
      rfl

/-- Between two places that lie between characters stands what is there. -/
theorem slice?_append (before middle after : List Char) :
    slice? (before ++ middle ++ after) (size before) (size before + size middle) =
      some middle := by
  rw [slice?, if_pos (Nat.le_add_right _ _), List.append_assoc, dropBytes?_size,
    Nat.add_sub_cancel_left]
  exact takeBytes?_size middle after

end RamlCheck.Text
