/-!
# Texts

A file is a sequence of bytes and a document is a text, so reading decodes UTF-8.
A sequence that is not the encoding of a text is refused as a whole; `forgiving`
is for showing output that was cut between two bytes of one character.

A character is *blank* when it has the Unicode property `White_Space`.  Lines of
a document are trimmed, and a document is found empty, by this rule and not by
the six blank characters of ASCII.  `isBlank_of_isWhitespace` says that the table
covers every character the core library calls white space.

Lines are cut at line feeds alone.  `cutLines` keeps each line feed with the line
it ends, so that nothing is lost (`flatten_cutLines`); `splitEnding` parts a line
from the carriage returns and line feeds at its end.
-/

namespace RamlCheck.Text

/-! ## Bytes -/

/-- The bytes of a text in UTF-8. -/
def encode (text : String) : ByteArray :=
  text.toUTF8

/-- The text that a sequence of bytes encodes, if it encodes one. -/
def decode? (bytes : ByteArray) : Option String :=
  String.fromUTF8? bytes

/-- The text that some bytes encode, if they encode one. -/
def decodeBytes? (bytes : List UInt8) : Option String :=
  decode? ⟨bytes.toArray⟩

/-- The longest beginning of a sequence of bytes that encodes a text, with a
replacement character for what an unfinished character leaves behind. -/
def forgiving (bytes : ByteArray) : String :=
  match decode? bytes with
  | some text => text
  | none =>
      let cut := [1, 2, 3].find? fun count =>
        (decode? (bytes.extract 0 (bytes.size - count))).isSome
      match cut with
      | none => ""
      | some count =>
          ((decode? (bytes.extract 0 (bytes.size - count))).getD "").push '\ufffd'

/-! ## Blank characters -/

/-- The first and last code points of the ranges with the property
`White_Space`. -/
def blankRanges : List (Nat × Nat) :=
  [(0x09, 0x0D), (0x20, 0x20), (0x85, 0x85), (0xA0, 0xA0), (0x1680, 0x1680),
   (0x2000, 0x200A), (0x2028, 0x2029), (0x202F, 0x202F), (0x205F, 0x205F), (0x3000, 0x3000)]

/-- Whether a code point lies in one of the listed ranges. -/
def inRanges (ranges : List (Nat × Nat)) (point : Nat) : Bool :=
  ranges.any fun range => range.1 ≤ point && point ≤ range.2

/-- Whether a character is white space by Unicode. -/
def isBlank (char : Char) : Bool :=
  inRanges blankRanges char.toNat

theorem isBlank_of_isWhitespace (char : Char) (hspace : char.isWhitespace = true) :
    isBlank char = true := by
  simp only [Char.isWhitespace, Bool.or_eq_true, decide_eq_true_eq] at hspace
  rcases hspace with ((rfl | rfl) | rfl) | rfl <;> decide

/-- The characters without the blank ones in front. -/
def trimStart (chars : List Char) : List Char :=
  chars.dropWhile isBlank

/-- The characters without those at the end that satisfy `drops`. -/
def trimEndWhile (drops : Char → Bool) (chars : List Char) : List Char :=
  (chars.reverse.dropWhile drops).reverse

/-- The characters without the blank ones at the end. -/
def trimEnd (chars : List Char) : List Char :=
  trimEndWhile isBlank chars

/-- Whether nothing but blank characters is there. -/
def isBlankText (chars : List Char) : Bool :=
  chars.all isBlank

/-! ## Lines -/

/-- The lines of a text, each with the line feed that ends it.  A text that ends
with a line feed has no further empty line. -/
def cutLines : List Char → List (List Char)
  | [] => []
  | char :: rest =>
      if char = '\n' then ['\n'] :: cutLines rest
      else
        match cutLines rest with
        | [] => [[char]]
        | line :: lines => (char :: line) :: lines

@[simp] theorem cutLines_nil : cutLines [] = [] := rfl

@[simp] theorem cutLines_newline (rest : List Char) :
    cutLines ('\n' :: rest) = ['\n'] :: cutLines rest := by
  simp [cutLines]

theorem flatten_cutLines (chars : List Char) : (cutLines chars).flatten = chars := by
  induction chars with
  | nil => rfl
  | cons char rest ih =>
      simp only [cutLines]
      split
      · next hnewline => simp [ih, hnewline]
      · cases hlines : cutLines rest with
        | nil => simp [hlines] at ih; simp [← ih]
        | cons line lines => simp [hlines] at ih; simp [← ih]

/-- Whether a character can end a line. -/
def isLineEnding (char : Char) : Bool :=
  char = '\n' || char = '\r'

/-- A line without the line feeds and carriage returns at its end, and those. -/
def splitEnding (line : List Char) : List Char × List Char :=
  let content := trimEndWhile isLineEnding line
  (content, line.drop content.length)

/-- The first line of a text without its line feed. -/
def firstLine (chars : List Char) : List Char :=
  chars.takeWhile (· ≠ '\n')

end RamlCheck.Text
