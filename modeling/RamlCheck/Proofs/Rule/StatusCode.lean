import RamlCheck.Document.Resource
import RamlCheck.Proofs.Text.Numeral
import RamlCheck.Rule.Responses

/-!
# Which keys are status codes

A status code is three digits that write a number from 100 to 599 (`IsThreeDigitCode`).  The
rule about responses reads a number and looks at its bounds, so it lets such a code pass behind a
plus sign and behind any number of zeros too, but no other key (`isStatusCode_iff`).

## Strategy

The digits of a number are those that it is printed with, behind some zeros (`Text.writes_iff`),
and a number within the bounds is printed with three.
-/

namespace RamlCheck.Rule

open Text (Writes)

variable {text : List Char} {number : Nat}

/-- Whether a text is three digits that write a number from 100 to 599. -/
structure IsThreeDigitCode (text : List Char) : Prop where
  length : text.length = 3
  digits : ∀ digit ∈ text, digit.isDigit = true
  least : 100 ≤ Nat.ofDigitChars 10 text 0
  greatest : Nat.ofDigitChars 10 text 0 ≤ 599

theorem isThreeDigitCode_toString (hleast : 100 ≤ number) (hgreatest : number ≤ 599) :
    IsThreeDigitCode (toString number).toList := by
  have hwrites := Text.writes_toString number
  refine ⟨?_, hwrites.chars, hwrites.value.symm ▸ hleast, hwrites.value.symm ▸ hgreatest⟩
  have hlong : ¬(toString number).toList.length ≤ 2 := fun hlength => by
    have hbound : number < 10 ^ 2 :=
      Nat.lt_of_lt_of_le hwrites.lt_pow (Nat.pow_le_pow_right (by decide) hlength)
    omega
  have hshort : (toString number).toList.length ≤ 3 := by
    rw [Text.toList_toString_nat]
    exact (Nat.length_toDigits_le_iff (by decide) (by decide)).mpr (by omega)
  omega

theorem IsThreeDigitCode.writes (hcode : IsThreeDigitCode text) :
    Writes (Nat.ofDigitChars 10 text 0) text :=
  ⟨List.ne_nil_of_length_pos (by rw [hcode.length]; decide), hcode.digits, rfl⟩

/-! ## Reading numbers -/

theorem readDigits_eq_some_iff {digits : List Char} :
    (if digits.isEmpty || !digits.all Char.isDigit then none
      else some (digits.foldl
        (fun value digit => value * 10 + (digit.toNat - '0'.toNat)) 0)) = some number ↔
      Writes number digits := by
  rw [Text.foldl_digits]
  constructor
  · intro hread
    split_ifs at hread with hnone
    simp only [Bool.or_eq_true, List.isEmpty_iff, Bool.not_eq_true', not_or,
      Bool.not_eq_false, List.all_eq_true] at hnone
    exact ⟨hnone.1, hnone.2, Option.some.inj hread⟩
  · rintro ⟨hnonempty, hdigits, rfl⟩
    rw [if_neg]
    simpa [hnonempty] using hdigits

/-- The reader of numbers takes digits, perhaps behind a plus sign. -/
theorem naturalOf?_eq_some_iff : naturalOf? text = some number ↔
    ∃ sign digits, (sign = [] ∨ sign = ['+']) ∧ Writes number digits ∧ text = sign ++ digits := by
  unfold naturalOf?
  simp only [readDigits_eq_some_iff]
  constructor
  · intro hwrites
    split at hwrites
    · next rest => exact ⟨['+'], rest, .inr rfl, hwrites, rfl⟩
    · exact ⟨[], text, .inl rfl, hwrites, rfl⟩
  · rintro ⟨sign, digits, rfl | rfl, hwrites, rfl⟩
    · split
      · exact absurd (hwrites.chars '+' List.mem_cons_self) (by decide)
      · exact hwrites
    · exact hwrites

/-! ## Keys -/

/-- A three-digit code begins with neither a plus sign nor a zero. -/
theorem IsThreeDigitCode.head?_ne (hcode : IsThreeDigitCode text) :
    text.head? ≠ some '+' ∧ text.head? ≠ some '0' := by
  refine ⟨fun hplus => ?_, fun hzero => ?_⟩
  · exact absurd (hcode.digits '+' (List.mem_of_mem_head? hplus)) (by decide)
  · obtain ⟨rest, rfl⟩ := List.head?_eq_some_iff.mp hzero
    have hlength : rest.length = 2 := by simpa using hcode.length
    have hrest : Writes (Nat.ofDigitChars 10 ('0' :: rest) 0) rest :=
      ⟨List.ne_nil_of_length_pos (by omega), (List.forall_mem_cons.mp hcode.digits).2, rfl⟩
    have hbound := hrest.lt_pow
    rw [hlength] at hbound
    exact absurd hcode.least (by omega)

theorem isStatusCode_eq_true_iff {key : String} : isStatusCode key = true ↔
    ∃ sign zeros code, (sign = [] ∨ sign = ['+']) ∧ IsThreeDigitCode code ∧
      key.toList = sign ++ (List.replicate zeros '0' ++ code) := by
  rw [isStatusCode, Option.any_eq_true]
  constructor
  · rintro ⟨number, hnumber, hbounds⟩
    obtain ⟨hleast, hgreatest⟩ : 100 ≤ number ∧ number ≤ 599 := by simpa using hbounds
    obtain ⟨sign, digits, hsign, hwrites, hkey⟩ := naturalOf?_eq_some_iff.mp hnumber
    obtain ⟨zeros, rfl⟩ := Text.writes_iff.mp hwrites
    exact ⟨sign, zeros, _, hsign, isThreeDigitCode_toString hleast hgreatest, hkey⟩
  · rintro ⟨sign, zeros, code, hsign, hcode, hkey⟩
    refine ⟨Nat.ofDigitChars 10 code 0, ?_, by simp [hcode.least, hcode.greatest]⟩
    exact naturalOf?_eq_some_iff.mpr ⟨sign, _, hsign, hcode.writes.behind_zeros zeros, hkey⟩

/-- The keys that pass for status codes are the three-digit codes, and these behind a plus sign or
zeros; a key without them passes if and only if it is a three-digit code. -/
theorem isStatusCode_iff (key : String) :
    (isStatusCode key = true ↔ ∃ sign zeros code, (sign = [] ∨ sign = ['+']) ∧
      IsThreeDigitCode code ∧ key.toList = sign ++ (List.replicate zeros '0' ++ code)) ∧
    (IsThreeDigitCode key.toList ↔ isStatusCode key = true ∧
      key.toList.head? ≠ some '+' ∧ key.toList.head? ≠ some '0') := by
  refine ⟨isStatusCode_eq_true_iff, fun hcode => ⟨?_, hcode.head?_ne⟩, ?_⟩
  · exact isStatusCode_eq_true_iff.mpr ⟨[], 0, key.toList, .inl rfl, hcode, rfl⟩
  · rintro ⟨hpasses, hplus, hzero⟩
    obtain ⟨sign, zeros, code, hsign, hcode, hkey⟩ := isStatusCode_eq_true_iff.mp hpasses
    rw [hkey] at hplus hzero ⊢
    rcases hsign with rfl | rfl
    · cases zeros with
      | zero => exact hcode
      | succ zeros => exact absurd rfl hzero
    · exact absurd rfl hplus

/-- A code behind a zero and one behind a plus sign are no three-digit codes, yet pass, so that
nothing is found in responses that have them for keys. -/
theorem padded_codes_pass :
    (isStatusCode "0200" = true ∧ ¬IsThreeDigitCode "0200".toList) ∧
      (isStatusCode "+404" = true ∧ ¬IsThreeDigitCode "+404".toList) ∧
      (Document.load "api.raml" ""
        "#%RAML 1.0\n/users:\n  get:\n    responses:\n      0200:\n      '+404':\n").toOption.any
          (fun document => responses.check (fun _ => .ok "") document = []) = true := by
  refine ⟨⟨by decide, fun hcode => ?_⟩, ⟨by decide, fun hcode => ?_⟩, by decide +kernel⟩
  · exact absurd hcode.length (by decide)
  · exact absurd hcode.length (by decide)

end RamlCheck.Rule
