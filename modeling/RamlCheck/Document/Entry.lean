import RamlCheck.Document.Header
import RamlCheck.Include.Rendering
import RamlCheck.Issue.Basic
import RamlCheck.Outline.Basic
import RamlCheck.Yaml.Document

/-!
# Entering a document

A document is entered when it is not empty, has a header and holds a mapping, both
as values and as an outline.  Whatever is missing is an `EntryError`; the first
one in this order counts.

The places of an outline's faults stand in their messages; `splitPlace` reads them
back.
-/

namespace RamlCheck

/-- A document that has been entered. -/
structure Document where
  /-- The path of the document, from its own directory. -/
  name : String
  /-- The directory that references start from. -/
  directory : String
  header : Header
  /-- The entries of the document with their places. -/
  root : List (Label × Outline)
  /-- The value of the document. -/
  value : Yaml.Value
  /-- The references of the document, in the order in which they stand. -/
  includes : List Include

/-- Why a document could not be entered. -/
inductive EntryError
  | empty
  | header
  | values (error : Yaml.Error)
  | noContent
  | rootNotMapping
  | outline (fault : Outline.Fault)
  deriving Repr

/-! ## Places in messages -/

/-- The first number that does not fit in 64 bits. -/
def placeLimit : Nat := Nat.pow 2 64

/-- The number that some digits write, if it fits in 64 bits. -/
def placeNumber? (digits : List Char) : Option Nat :=
  if digits.isEmpty then none
  else
    let number := digits.foldl (fun value digit => value * 10 + (digit.toNat - '0'.toNat)) 0
    if number < placeLimit then some number else none

/-- The digits in front of a text, and what follows them. -/
def splitDigits (text : List Char) : List Char × List Char :=
  (text.takeWhile Char.isDigit, text.dropWhile Char.isDigit)

/-- A message that starts with a line and a column, as these and what follows. -/
def splitPlace? (message : List Char) : Option (Nat × Nat × List Char) := do
  let (line, behindLine) := splitDigits message
  match behindLine with
  | ':' :: behindLine =>
      let (column, behindColumn) := splitDigits behindLine
      match behindColumn with
      | ':' :: ' ' :: rest =>
          if rest.contains '\n' then none
          else return (← placeNumber? line, ← placeNumber? column, rest)
      | _ => none
  | _ => none

/-- The line, the column and the rest of a message.  A message without them counts
as a whole and for the start of the document. -/
def splitPlace (message : String) : Nat × Nat × String :=
  match splitPlace? message.toList with
  | some (line, column, rest) => (line, column, String.ofList rest)
  | none => (1, 1, message)

/-! ## Errors -/

namespace EntryError

/-- The failure with a single error at some place of a document. -/
def failureAt (name : String) (line column : Nat) (message : String) : Failure :=
  .structured [{ path := name, line, column, message, isWarning := false }] none

/-- The failure that an error makes in a document of some name. -/
def failure (name : String) : EntryError → Failure
  | .empty => .generic "Document is empty"
  | .header =>
      failureAt name 1 1
        "Invalid first line. A RAML document is expected to start with '#%RAML <version>'"
  | .values error =>
      let (line, column) := error.position?.getD (1, 1)
      failureAt name line column error.summary
  | .noContent => failureAt name 1 1 "Document has no content after the RAML header"
  | .rootNotMapping => failureAt name 1 1 "Document root must be a mapping"
  | .outline fault =>
      let (line, column, message) := splitPlace fault.message
      failureAt name line column message

end EntryError

/-! ## Loading -/

namespace Document

/-- A text without the mark of its byte order. -/
def withoutByteOrderMark (content : String) : String :=
  match content.toList with
  | '\ufeff' :: rest => String.ofList rest
  | _ => content

/-- The header of a text. -/
def headerOf (content : String) : Except EntryError Header :=
  if Text.isBlankText content.toList then .error .empty
  else
    match Header.parse? (Text.firstLine content.toList) with
    | some header => .ok header
    | none => .error .header

/-- The value of a text, which has to be a mapping. -/
def valueOf (content : String) : Except EntryError Yaml.Value :=
  match Yaml.read (Include.valuesText content) with
  | .error error => .error (.values error)
  | .ok value =>
      match value with
      | .mapping _ => .ok value
      | .null => .error .noContent
      | _ => .error .rootNotMapping

/-- The outline of a text, which has to be a mapping. -/
def rootOf (content : String) : Except EntryError (List (Label × Outline)) :=
  match Outline.read (Include.positionsText content) with
  | .error fault => .error (.outline fault)
  | .ok outline =>
      match outline.bind Outline.entries? with
      | some entries => .ok entries
      | none => .error .rootNotMapping

/-- Enters a document with some name, directory and text. -/
def load (name directory content : String) : Except EntryError Document := do
  let content := withoutByteOrderMark content
  let header ← headerOf content
  let value ← valueOf content
  let root ← rootOf content
  return { name, directory, header, root, value, includes := Include.includesOf content }

end Document

end RamlCheck
