import RamlCheck.Yaml.Property
import RamlCheck.Yaml.Scalar

/-!
# Written YAML

A value is written in block style, each level indented by two columns.  Entries
of a sequence inside a mapping stand at the column of their key.  A string is
written as plainly as it can be while it still reads back as that string.

## Strategy

Whether a blank or a break is due depends on what has been written last, so a
`Page` remembers the column, whether a blank ended it, and whether nothing but
indentation and indicators stand on its last line.
-/

namespace RamlCheck.Yaml

/-- A text under way. -/
structure Page where
  /-- The characters so far, the last one first. -/
  reversed : List Char
  column : Nat
  afterBlank : Bool
  inIndentation : Bool

namespace Page

/-- Nothing written yet. -/
def empty : Page :=
  { reversed := [], column := 0, afterBlank := true, inIndentation := true }

/-- The text of a page. -/
def text (page : Page) : String :=
  String.ofList page.reversed.reverse

/-- Appends characters of which none is a break. -/
def put (chars : List Char) (page : Page) : Page :=
  { page with reversed := chars.reverse ++ page.reversed, column := page.column + chars.length }

/-- Ends a line by some break. -/
def putBreak (char : Char) (page : Page) : Page :=
  { page with reversed := char :: page.reversed, column := 0 }

/-- Appends a blank, unless one stands there already. -/
def putGap (page : Page) : Page :=
  if page.afterBlank then page else page.put [' ']

/-- Appends an indicator that keeps its line an indentation if `indents`. -/
def indicator (chars : List Char) (indents : Bool) (page : Page) : Page :=
  { page.put chars with afterBlank := false, inIndentation := page.inIndentation && indents }

/-- Turns to a column of a line on which nothing but indentation stands. -/
def indentTo (indent : Nat) (page : Page) : Page :=
  let page :=
    if !page.inIndentation || decide (indent < page.column)
        || (decide (page.column = indent) && !page.afterBlank)
    then page.putBreak '\n' else page
  { page.put (List.replicate (indent - page.column) ' ') with
    afterBlank := true, inIndentation := true }

/-- Appends one character of a scalar. -/
def content (chars : List Char) (page : Page) : Page :=
  { page.put chars with inIndentation := false }

/-- Ends a scalar. -/
def endScalar (page : Page) : Page :=
  { page with afterBlank := false, inIndentation := false }

end Page

/-! ## Tags -/

/-- Whether a character stands for itself in a written tag. -/
def isPlainTagChar (char : Char) : Bool :=
  isNameChar char || [';', '/', '?', ':', '@', '&', '=', '+', '$', ',', '.', '~', '*', '\'',
    '(', ')', '[', ']'].contains char

/-- A digit of base sixteen in upper case. -/
def upperHexDigit (value : Nat) : Char :=
  if value < 10 then Char.ofNat ('0'.toNat + value) else Char.ofNat ('A'.toNat + (value - 10))

/-- A character of a tag as it is written: itself or its bytes. -/
def tagCharText (char : Char) : List Char :=
  if isPlainTagChar char then [char]
  else
    char.toString.toUTF8.toList.flatMap fun byte =>
      ['%', upperHexDigit (byte.toNat / 16), upperHexDigit (byte.toNat % 16)]

/-- A local tag with its `!`. -/
def fullTag (tag : String) : List Char :=
  let name := tagWithoutBang tag
  if name.head? = some '!' then name else '!' :: name

/-- A local tag as it is written.  The tag `!` is spelt out. -/
def tagText (tag : String) : List Char :=
  match (fullTag tag).drop 1 with
  | [] => "!<%21>".toList
  | suffix => '!' :: suffix.flatMap tagCharText

/-- Appends a tag, if there is one. -/
def putTag (tag : Option String) (page : Page) : Page :=
  match tag with
  | none => page
  | some tag => (page.putGap.put (tagText tag)).endScalar

/-! ## Scalars -/

/-- How a scalar is written. -/
inductive ScalarStyle
  | plain
  | single
  | double
  | literal
  deriving DecidableEq, Repr

/-- A break of a line in a scalar. -/
def isScalarBreak (char : Char) : Bool :=
  isBreak11 char

/-- A space, a tab, a break or nothing. -/
def isBlankOrNone (char : Option Char) : Bool :=
  char.all fun char => char = ' ' || char = '\t' || isScalarBreak char

/-- Whether a character can be written as it is. -/
def isPrintable (char : Char) : Bool :=
  char = '\n' || (' ' ≤ char && char ≤ '~') || (char.toNat ≥ 0xA0 && char.toNat < 0xD800)
    || (char.toNat ≥ 0xE000 && char.toNat < 0xFFFE && char ≠ '\ufeff') || char.toNat ≥ 0x10000

/-- Whether some character and its successor satisfy a test. -/
def anyPair (test : Char → Char → Bool) : List Char → Bool
  | first :: second :: rest => test first second || anyPair test (second :: rest)
  | _ => false

/-- Whether a scalar starts or goes on in a way that has a meaning of its own. -/
def hasIndicators (text : List Char) : Bool :=
  let startsDocument := text.take 3 = ['-', '-', '-'] || text.take 3 = ['.', '.', '.']
  let startsIndicator :=
    match text with
    | [] => false
    | first :: rest =>
        ['#', ',', '[', ']', '\x7b', '\x7d', '&', '*', '!', '|', '>', '\'', '"', '%', '@',
          '`'].contains first
          || (['?', ':', '-'].contains first && isBlankOrNone rest.head?)
  let colonInside := anyPair (fun first second => first = ':' && isBlankOrNone (some second))
    (text.drop 1)
  let colonAtEnd := decide (1 < text.length) && text.getLast? = some ':'
  let comment := anyPair (fun first second => isBlankOrNone (some first) && second = '#') text
  startsDocument || startsIndicator || colonInside || colonAtEnd || comment

/-- Which styles a scalar admits. -/
structure ScalarShape where
  multiline : Bool
  plain : Bool
  single : Bool
  block : Bool
  deriving DecidableEq, Repr

/-- The shape of a scalar. -/
def ScalarShape.of (text : List Char) : ScalarShape :=
  let isEdge := fun (char : Char) => char = ' ' || isScalarBreak char
  let edges := text.head?.any isEdge || text.getLast?.any isEdge
  let trailingSpace := text.getLast? = some ' '
  let multiline := text.any isScalarBreak
  let special := text.any fun char => !isPrintable char
  let breakSpace := anyPair (fun first second => isScalarBreak first && second = ' ') text
  let spaceBreak := anyPair (fun first second => first = ' ' && isScalarBreak second) text
  let escaped := spaceBreak || special
  { multiline
    plain := !edges && !breakSpace && !escaped && !multiline && !hasIndicators text
    single := !breakSpace && !escaped
    block := !text.isEmpty && !trailingSpace && !escaped }

/-- The style that a string asks for: lines stand in a block, and what would not
read back as a string stands in quotes. -/
def wantedStyle (text : List Char) : ScalarStyle :=
  if text.contains '\n' then .literal
  else
    match Scalar.resolve text with
    | .value (.string _) => if Scalar.isPaddedDigits text then .single else .plain
    | _ => .single

/-- The style that a scalar gets.  A key on the line of its value is no block. -/
def allowedStyle (shape : ScalarShape) (asKey : Bool) (wanted : ScalarStyle) : ScalarStyle :=
  let wanted := if asKey && shape.multiline then .double else wanted
  match wanted with
  | .double => .double
  | .literal => if shape.block && !asKey then .literal else .double
  | .plain => if shape.plain then .plain else if shape.single then .single else .double
  | .single => if shape.single then .single else .double

/-- A number in base sixteen with some digits. -/
def hexText : Nat → Nat → List Char
  | 0, _ => []
  | width + 1, value => hexText width (value / 16) ++ [upperHexDigit (value % 16)]

/-- A character between double quotes. -/
def escapedChar (char : Char) : List Char :=
  if char = '"' ∨ char = '\\' then ['\\', char]
  else if isPrintable char && !isScalarBreak char then [char]
  else
    match char with
    | '\x00' => ['\\', '0']
    | '\x07' => ['\\', 'a']
    | '\x08' => ['\\', 'b']
    | '\t' => ['\\', 't']
    | '\n' => ['\\', 'n']
    | '\x0b' => ['\\', 'v']
    | '\x0c' => ['\\', 'f']
    | '\r' => ['\\', 'r']
    | '\x1b' => ['\\', 'e']
    | '\u0085' => ['\\', 'N']
    | '\u2028' => ['\\', 'L']
    | '\u2029' => ['\\', 'P']
    | _ =>
        if char.toNat ≤ 0xFF then '\\' :: 'x' :: hexText 2 char.toNat
        else if char.toNat ≤ 0xFFFF then '\\' :: 'u' :: hexText 4 char.toNat
        else '\\' :: 'U' :: hexText 8 char.toNat

/-- Characters between single quotes.  `broken` says that a line has just
ended. -/
def putSingle (indent : Nat) : (broken : Bool) → List Char → Page → Page
  | broken, [], page => if broken then page.indentTo indent else page
  | broken, char :: rest, page =>
      if char = ' ' then putSingle indent false rest (page.put [' '])
      else if isScalarBreak char then
        let page := if !broken && char = '\n' then page.putBreak '\n' else page
        putSingle indent true rest { page.putBreak char with inIndentation := true }
      else
        let page := if broken then page.indentTo indent else page
        putSingle indent false rest (page.content (if char = '\'' then ['\'', '\''] else [char]))

/-- Lines of a block.  `broken` says that a line has just ended. -/
def putLines (indent : Nat) : (broken : Bool) → List Char → Page → Page
  | _, [], page => page
  | broken, char :: rest, page =>
      if isScalarBreak char then
        putLines indent true rest { page.putBreak char with inIndentation := true }
      else
        let page := if broken then page.indentTo indent else page
        putLines indent false rest (page.content [char])

/-- The header of a block: indentation is told where it cannot be seen, and the
breaks at the end are accounted for. -/
def blockHeader (text : List Char) : List Char :=
  let startsBlank := text.head?.any fun char => char = ' ' || isScalarBreak char
  let breaks := (text.reverse.takeWhile isScalarBreak).length
  let chomping : List Char :=
    if breaks = 0 then ['-']
    else if breaks = text.length ∨ 1 < breaks then ['+']
    else []
  '|' :: (if startsBlank then ['2'] else []) ++ chomping

/-- Appends a scalar in some style. -/
def putScalar (indent : Nat) (style : ScalarStyle) (text : List Char) (page : Page) : Page :=
  match style with
  | .plain => ((if text.isEmpty then page else page.putGap).put text).endScalar
  | .single =>
      (putSingle indent false text (page.putGap.indicator ['\''] false)).put ['\''] |>.endScalar
  | .double =>
      (page.putGap.put ('"' :: text.flatMap escapedChar ++ ['"'])).endScalar
  | .literal =>
      let page := (page.putGap.put (blockHeader text)).putBreak '\n'
      (putLines indent true text { page with afterBlank := true, inIndentation := true })

/-! ## Values -/

/-- The text of a scalar and the style it asks for. -/
def scalarText? : Value → Option (List Char × ScalarStyle)
  | .null => some ("null".toList, .plain)
  | .bool value => some ((if value then "true" else "false").toList, .plain)
  | .number value => some (value.text.toList, .plain)
  | .string text => some (text.toList, wantedStyle text.toList)
  | .sequence _ => none
  | .mapping _ => none
  | .tagged _ _ => none

/-- The column of what is inside a collection at some column. -/
def deeper (indent : Option Nat) : Nat :=
  match indent with
  | none => 0
  | some indent => indent + 2

/-- The column of the lines of a scalar inside a collection at some column. -/
def scalarIndent (indent : Option Nat) : Nat :=
  indent.getD 0 + 2

/-- The length of a value on one line, for those that fit on one. -/
def lengthOnLine? : Value → Option Nat
  | .tagged tag value =>
      (lengthOnLine? value).map ((String.ofList (fullTag tag)).utf8ByteSize + ·)
  | .sequence items => if items.isEmpty then some 0 else none
  | .mapping entries => if entries.isEmpty then some 0 else none
  | value => do
      let (text, _) ← scalarText? value
      if text.any isScalarBreak then none else some (String.ofList text).utf8ByteSize

/-- Whether a key stands on the line of its value. -/
def isShortKey (value : Value) : Bool :=
  (lengthOnLine? value).any (· ≤ 128)

/-- Whether a mapping of a single entry would take its key for its own tag: such a
mapping cannot be written. -/
def losesItself (tag : Option String) (entries : List (Value × Value)) : Bool :=
  match tag, entries with
  | none, [(.tagged _ _, _)] => true
  | none, [(.mapping [_], _)] => true
  | _, _ => false

mutual

/-- Appends a value inside a collection at some column.  `inMapping` says that
this collection is a mapping, `asKey` that the value is a key on a line with its
own value.  What cannot be written gives nothing. -/
def putValue (indent : Option Nat) (inMapping asKey : Bool) (tag : Option String)
    (page : Page) : Value → Option Page
  | .tagged inner value =>
      if tag.isSome then none else putValue indent inMapping asKey (some inner) page value
  | .sequence items =>
      let page := putTag tag page
      if items.isEmpty then some ((page.putGap.put ['[', ']']).endScalar)
      else
        let column :=
          if inMapping && !page.inIndentation then indent.getD 0 else deeper indent
        putItems column page items
  | .mapping entries =>
      let page' := putTag tag page
      if losesItself tag entries then none
      else if entries.isEmpty then some ((page'.putGap.put ['\x7b', '\x7d']).endScalar)
      else putEntries (deeper indent) page' entries
  | value =>
      (scalarText? value).map fun (text, wanted) =>
        let style := allowedStyle (.of text) asKey wanted
        putScalar (scalarIndent indent) style text (putTag tag page)

/-- Appends the items of a sequence at some column. -/
def putItems (column : Nat) (page : Page) : List Value → Option Page
  | [] => some page
  | item :: rest => do
      let page ← putValue (some column) false false none
        ((page.indentTo column).putGap.indicator ['-'] true) item
      putItems column page rest

/-- Appends the entries of a mapping at some column. -/
def putEntries (column : Nat) (page : Page) : List (Value × Value) → Option Page
  | [] => some page
  | (key, value) :: rest => do
      let page := page.indentTo column
      if isShortKey key then
        let page ← putValue (some column) true true none page key
        let page ← putValue (some column) true false none (page.indicator [':'] false) value
        putEntries column page rest
      else
        let page ← putValue (some column) true false none
          (page.putGap.indicator ['?'] true) key
        let page ← putValue (some column) true false none
          ((page.indentTo column).putGap.indicator [':'] true) value
        putEntries column page rest

end

/-- The text of a value, if it can be written. -/
def Value.print? (value : Value) : Option String :=
  (putValue none false false none .empty value).map Page.text

end RamlCheck.Yaml
