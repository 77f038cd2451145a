import RamlCheck.Text.Unprintable

/-!
# Quoted literals

Messages show a text of the document as a literal in double quotes.  Inside it a
quote and a backslash follow a backslash, the usual control characters have
their letters, and any other character without a shape of its own is spelt
`\u` with its code point in braces.

`quoted` leaves a text of printable characters other than the quote and the
backslash as it is (`quoted_of_plain`).
-/

namespace RamlCheck.Text

/-- The digits of a number in base sixteen, in lower case and without leading
zeros. -/
def hexDigits (number : Nat) : List Char :=
  Nat.toDigits 16 number

/-- One character as it stands in a quoted literal. -/
def spellInQuotes (char : Char) : List Char :=
  if char = '\x00' then ['\\', '0']
  else if char = '\t' then ['\\', 't']
  else if char = '\r' then ['\\', 'r']
  else if char = '\n' then ['\\', 'n']
  else if char = '"' then ['\\', '"']
  else if char = '\\' then ['\\', '\\']
  else if isUnprintable char then ['\\', 'u', '\x7b'] ++ hexDigits char.toNat ++ ['\x7d']
  else [char]

/-- A text as a literal in double quotes. -/
def quoted (text : String) : String :=
  String.ofList ('"' :: text.toList.flatMap spellInQuotes ++ ['"'])

/-- Whether a character stands for itself in a quoted literal. -/
def isPlainInQuotes (char : Char) : Bool :=
  spellInQuotes char = [char]

theorem quoted_of_plain (text : String) (hplain : text.toList.all isPlainInQuotes = true) :
    quoted text = String.ofList ('"' :: text.toList ++ ['"']) := by
  have hspelt : ∀ chars : List Char, chars.all isPlainInQuotes = true →
      chars.flatMap spellInQuotes = chars := by
    intro chars hchars
    induction chars with
    | nil => rfl
    | cons char rest ih =>
        simp only [List.all_cons, Bool.and_eq_true, isPlainInQuotes, decide_eq_true_eq] at hchars
        simp [hchars.1, ih (by simpa [isPlainInQuotes] using hchars.2)]
  simp only [quoted, hspelt _ hplain]

end RamlCheck.Text
