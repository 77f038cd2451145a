import Mathlib.Algebra.Group.Nat.Defs
import Mathlib.Data.List.Induction

/-!
# Numbers in decimal digits

`Writes` says which digits write a number.  These are the digits that the number is printed
with, perhaps with zeros in front (`writes_iff`).

## Strategy

Digits are taken off at the end.  What is in front of the last one writes a number already,
so only the zeros need care: zero itself is printed with a digit, which turns into one of the
zeros in front as soon as a digit comes behind it (`exists_zeros_concat`).
-/

namespace RamlCheck.Text

variable {number : Nat} {digits : List Char}

/-- Whether some digits, at least one, write a number. -/
structure Writes (number : Nat) (digits : List Char) : Prop where
  nonempty : digits ≠ []
  chars : ∀ digit ∈ digits, digit.isDigit = true
  value : Nat.ofDigitChars 10 digits 0 = number

theorem toList_toString_nat (number : Nat) :
    (toString number).toList = Nat.toDigits 10 number := by
  rw [Nat.toString_eq_ofList_toDigits, String.toList_ofList]

/-- The way in which readers put digits together. -/
theorem foldl_digits (digits : List Char) :
    digits.foldl (fun value digit => value * 10 + (digit.toNat - '0'.toNat)) 0 =
      Nat.ofDigitChars 10 digits 0 := by
  simp only [Nat.ofDigitChars_eq_foldl, Nat.mul_comm]

theorem exists_digitChar {digit : Char} (hdigit : digit.isDigit = true) :
    ∃ value < 10, digit = Nat.digitChar value := by
  obtain ⟨hleast, hgreatest⟩ := Char.isDigit_iff_toNat.mp hdigit
  have hzero : '0'.toNat = 48 := rfl
  have hnine : '9'.toNat = 57 := rfl
  refine ⟨digit.toNat - 48, by omega, Char.toNat_inj.mp ?_⟩
  rw [Nat.toNat_digitChar_of_lt_ten (by omega)]
  omega

theorem writes_toString (number : Nat) : Writes number (toString number).toList := by
  rw [toList_toString_nat]
  exact ⟨Nat.toDigits_ne_nil, fun _ => Nat.isDigit_of_mem_toDigits (by decide) (by decide),
    Nat.ofDigitChars_ten_toDigits⟩

/-- Zeros in front do not matter. -/
theorem Writes.behind_zeros (hwrites : Writes number digits) (zeros : Nat) :
    Writes number (List.replicate zeros '0' ++ digits) where
  nonempty := List.append_ne_nil_of_right_ne_nil _ hwrites.nonempty
  chars digit hdigit := by
    rcases List.mem_append.mp hdigit with hzero | hdigit
    · rw [List.eq_of_mem_replicate hzero]
      rfl
    · exact hwrites.chars digit hdigit
  value := by
    rw [Nat.ofDigitChars_append, Nat.ofDigitChars_replicate_zero, Nat.mul_zero, hwrites.value]

/-- A digit behind a number makes another one, and if the number is zero, then the zero that it
is printed with is one more in front. -/
theorem exists_zeros_concat (zeros number : Nat) {value : Nat} (hvalue : value < 10) :
    ∃ others, List.replicate zeros '0' ++ Nat.toDigits 10 number ++ [Nat.digitChar value] =
      List.replicate others '0' ++ Nat.toDigits 10 (10 * number + value) := by
  rw [← Nat.toDigits_of_lt_base hvalue]
  rcases Nat.eq_zero_or_pos number with rfl | hpos
  · refine ⟨zeros + 1, ?_⟩
    rw [Nat.toDigits_zero, Nat.mul_zero, Nat.zero_add, List.replicate_succ']
  · refine ⟨zeros, ?_⟩
    rw [List.append_assoc, Nat.toDigits_append_toDigits (by decide) hpos hvalue]

theorem exists_zeros_of_digits (hnonempty : digits ≠ [])
    (hdigits : ∀ digit ∈ digits, digit.isDigit = true) :
    ∃ zeros, digits =
      List.replicate zeros '0' ++ Nat.toDigits 10 (Nat.ofDigitChars 10 digits 0) := by
  induction digits using List.reverseRecOn with
  | nil => contradiction
  | append_singleton front last ih =>
      obtain ⟨hfront, hlast⟩ := List.forall_mem_append.mp hdigits
      obtain ⟨value, hvalue, rfl⟩ := exists_digitChar (hlast last (List.mem_singleton_self _))
      rw [Nat.ofDigitChars_append, Nat.ofDigitChars_cons_digitChar_of_lt_ten hvalue,
        Nat.ofDigitChars_nil]
      -- a single digit is printed as it is, and has no number in front to go on with
      by_cases hempty : front = []
      · subst hempty
        exact ⟨0, by simp [Nat.ofDigitChars_nil, Nat.toDigits_of_lt_base hvalue]⟩
      · obtain ⟨zeros, hzeros⟩ := ih hempty hfront
        obtain ⟨others, hothers⟩ :=
          exists_zeros_concat zeros (Nat.ofDigitChars 10 front 0) hvalue
        exact ⟨others, (congrArg (· ++ _) hzeros).trans hothers⟩

/-- The digits that write a number are those that it is printed with, behind some zeros. -/
theorem writes_iff : Writes number digits ↔
    ∃ zeros, digits = List.replicate zeros '0' ++ (toString number).toList := by
  constructor
  · rintro ⟨hnonempty, hdigits, rfl⟩
    rw [toList_toString_nat]
    exact exists_zeros_of_digits hnonempty hdigits
  · rintro ⟨zeros, rfl⟩
    exact (writes_toString number).behind_zeros zeros

/-- A number takes as many digits as it has, at least. -/
theorem Writes.lt_pow (hwrites : Writes number digits) : number < 10 ^ digits.length := by
  obtain ⟨zeros, rfl⟩ := writes_iff.mp hwrites
  have hlength : 0 < (List.replicate zeros '0' ++ (toString number).toList).length :=
    List.length_pos_iff.mpr hwrites.nonempty
  refine (Nat.length_toDigits_le_iff (by decide) hlength).mp ?_
  rw [List.length_append, toList_toString_nat]
  exact Nat.le_add_left _ _

end RamlCheck.Text
