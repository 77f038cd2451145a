import RamlCheck.File.Basic
import RamlCheck.Input.Basic
import RamlCheck.Text.Basic

/-!
# Standard input

A pipe is read as a whole before the run, so that an empty one can be left out.
A terminal is read only when its content is asked for.  What has been read is
kept, while reading takes the bytes whether or not they are a text.
-/

namespace RamlCheck

/-- Standard input during a run: whether it is a terminal, its text once that is
known, and the bytes that reading it would give. -/
structure StandardInput where
  interactive : Bool
  content : Option String
  pending : ByteArray

namespace StandardInput

/-- Reading bytes that are meant to be a text. -/
def readAll (bytes : ByteArray) : Except Fatal String :=
  match Text.decode? bytes with
  | some text => .ok text
  | none => .error (.standardInput ReadFailure.notText.message)

/-- Standard input with a known text. -/
def ofContent (text : String) : StandardInput :=
  { interactive := false, content := some text, pending := ByteArray.empty }

/-- A terminal that has not been read. -/
def terminal (pending : ByteArray) : StandardInput :=
  { interactive := true, content := none, pending }

/-- A pipe, read as a whole. -/
def ofPipe (bytes : ByteArray) : Except Fatal StandardInput :=
  (readAll bytes).map ofContent

/-- Standard input of which nothing is known, and which is empty. -/
def unread : StandardInput :=
  { interactive := false, content := none, pending := ByteArray.empty }

/-- Whether standard input counts as an input beside some arguments.  A terminal
never does by itself. -/
def isAvailable (stdin : StandardInput) (arguments : List String) : Bool :=
  !stdin.interactive &&
    (stdin.content.any (fun text => text ≠ "") || arguments.contains Input.placeholder)

/-- The text of standard input, and standard input afterwards. -/
def text (stdin : StandardInput) : Except Fatal String × StandardInput :=
  match stdin.content with
  | some text => (.ok text, stdin)
  | none =>
      match readAll stdin.pending with
      | .ok text => (.ok text, { stdin with content := some text, pending := ByteArray.empty })
      | .error fatal => (.error fatal, { stdin with pending := ByteArray.empty })

theorem text_of_content {stdin : StandardInput} {content : String}
    (hcontent : stdin.content = some content) : stdin.text = (.ok content, stdin) := by
  simp [text, hcontent]

end StandardInput

end RamlCheck
