/-!
# Files

A path is a text of components with slashes between them.  Repeated slashes,
slashes at the end and components `.` that do not come first say nothing, so two
spellings of a path are *equivalent* when their components agree.  `..` is never
resolved here, since only the file system knows where it leads.  Joining and
cutting work on the text, so that what is reported is spelt the way it was given.

A file system is what reading each path gives: a text, or the reason why there
is none.  Nothing else about files is ever asked, so this function is all the
checker knows of them, and two file systems can be compared path by path.

Problems of a document are findings.  Only standard input that cannot be read and
a report that cannot be written end a run before its time (`Fatal`).
-/

namespace RamlCheck.Path

/-- One component of a path. -/
inductive Component
  | root
  | current
  | parent
  | name (text : String)
  deriving DecidableEq, Repr

/-- The parts of a path between its slashes, empty ones included. -/
def parts : List Char → List (List Char)
  | [] => [[]]
  | char :: rest =>
      if char = '/' then [] :: parts rest
      else
        match parts rest with
        | [] => [[char]]
        | part :: others => (char :: part) :: others

/-- Whether a path starts at the root. -/
def isAbsolute (path : String) : Bool :=
  path.toList.head? = some '/'

/-- The component that a part behind the first one stands for, if any. -/
def inner? (part : List Char) : Option Component :=
  if part = [] ∨ part = ['.'] then none
  else if part = ['.', '.'] then some .parent
  else some (.name (String.ofList part))

/-- The components of a path. -/
def components (path : String) : List Component :=
  match parts path.toList with
  | [] => []
  | first :: others =>
      let start : List Component :=
        if first = ['.'] then [.current]
        else if isAbsolute path then [.root]
        else (inner? first).toList
      start ++ others.filterMap inner?

/-- Whether two spellings have the same components. -/
def equivalent (left right : String) : Bool :=
  components left = components right

/-- The last component of a path, when it is a name. -/
def fileName? (path : String) : Option String :=
  match (components path).getLast? with
  | some (.name text) => some text
  | _ => none

/-- How many characters at the start of a path belong to its root, or to a
leading `.`. -/
def anchorLength : List Char → Nat
  | '/' :: _ => 1
  | ['.'] => 1
  | '.' :: '/' :: _ => 1
  | _ => 0

/-- The characters in front of the last part, without the slash between them,
from the characters of a path in reverse. -/
def dropPart (reversed : List Char) : List Char :=
  (reversed.dropWhile (· ≠ '/')).drop 1

/-- The characters of a path in reverse, without the parts at its end that say
nothing. -/
def dropSilent : Nat → List Char → List Char
  | 0, reversed => reversed
  | fuel + 1, reversed =>
      let last := reversed.takeWhile (· ≠ '/')
      if reversed = [] then []
      else if last = [] ∨ last = ['.'] then dropSilent fuel (dropPart reversed)
      else reversed

/-- The path without its last component; a root alone and the empty path have no
parent. -/
def parent? (path : String) : Option String :=
  let chars := path.toList
  let anchor := chars.take (anchorLength chars)
  let reversed := dropSilent chars.length (chars.drop (anchorLength chars)).reverse
  if reversed = [] then
    if anchor = ['.'] then some "" else none
  else
    let remaining := dropSilent chars.length (dropPart reversed)
    some (String.ofList (anchor ++ remaining.reverse))

/-- The directory a path lies in; the current one for a path without a parent. -/
def directory (path : String) : String :=
  (parent? path).getD ""

/-- A path looked up from a directory.  An absolute path stays as it is. -/
def join (base path : String) : String :=
  if isAbsolute path then path
  else if base = "" ∨ base.toList.getLast? = some '/' then base ++ path
  else base ++ "/" ++ path

/-- What follows the last dot of a file name that does not start with it. -/
def extensionOf? (name : List Char) : Option String :=
  let reversed := name.reverse
  let ending := reversed.takeWhile (· ≠ '.')
  let stem := (reversed.dropWhile (· ≠ '.')).drop 1
  if name.contains '.' && stem ≠ [] then some (String.ofList ending.reverse) else none

/-- The extension of the file that a path names. -/
def extension? (path : String) : Option String :=
  (fileName? path).bind fun name => extensionOf? name.toList

@[simp] theorem equivalent_self (path : String) : equivalent path path = true := by
  simp [equivalent]

end RamlCheck.Path

namespace RamlCheck

/-! ## Reading files -/

/-- Why a file could not be read as a text. -/
inductive ReadFailure
  | notFound
  | isDirectory
  | notDirectory
  | nameTooLong
  | nulInName
  | notText
  | other (description : String)
  deriving DecidableEq, Repr

/-- The wording of a failure. -/
def ReadFailure.message : ReadFailure → String
  | .notFound => "No such file or directory (os error 2)"
  | .isDirectory => "Is a directory (os error 21)"
  | .notDirectory => "Not a directory (os error 20)"
  | .nameTooLong => "File name too long (os error 36)"
  | .nulInName => "file name contained an unexpected NUL byte"
  | .notText => "stream did not contain valid UTF-8"
  | .other description => description

/-- What reading a path gives. -/
abbrev FileSystem := String → Except ReadFailure String

namespace FileSystem

/-- The file system of which only some paths are known. -/
def ofList (known : List (String × Except ReadFailure String)) : FileSystem :=
  fun path => (known.lookup path).getD (.error .notFound)

end FileSystem

/-! ## Errors that end a run -/

/-- Why a run ended before its time, with the wording of what was behind it. -/
inductive Fatal
  | standardInput (cause : String)
  | json (cause : String)
  | output (cause : String)
  | other (cause : String)
  deriving DecidableEq, Repr

/-- The wording of an error. -/
def Fatal.message : Fatal → String
  | .standardInput cause => "Failed to read standard input: " ++ cause
  | .json cause => "Failed to serialize JSON output: " ++ cause
  | .output cause => "IO error: " ++ cause
  | .other cause => cause

end RamlCheck
