import RamlCheck.File.Basic
import RamlCheck.Text.Basic

/-!
# Directory trees

A directory tree with a working directory is a concrete file system.  A path is
walked part by part: a file cannot be entered, and a missing name ends the walk.
Above the root lies the root itself.
-/

namespace RamlCheck

/-- What stands in a tree under a name. -/
inductive Entry
  | directory
  | file (content : ByteArray)

/-- Files and directories by the names that lead to them from the root, and the
working directory.  Every directory on the way to an entry exists. -/
structure Tree where
  entries : List (List String × Entry)
  working : List String

namespace Tree

/-- Whether a list of names starts with another. -/
def startsWith (names start : List String) : Bool :=
  names.take start.length = start

/-- What stands at some place of a tree. -/
def entryAt? (tree : Tree) (place : List String) : Option Entry :=
  match tree.entries.find? fun entry => entry.1 = place with
  | some entry => some entry.2
  | none =>
      if startsWith tree.working place || tree.entries.any (fun entry => startsWith entry.1 place)
      then some .directory
      else none

/-- The longest name that a directory can hold, in bytes. -/
def longestName : Nat := 255

/-- The longest path that can be looked up, in bytes. -/
def longestPath : Nat := 4095

/-- The end of a walk over parts of a path, from some place. -/
def walk (tree : Tree) : List String → List (List Char) → Except ReadFailure (List String)
  | place, [] => .ok place
  | place, part :: rest =>
      match tree.entryAt? place with
      | none => .error .notFound
      | some (.file _) => .error .notDirectory
      | some .directory =>
          if part = [] ∨ part = ['.'] then walk tree place rest
          else if part = ['.', '.'] then walk tree place.dropLast rest
          else if longestName < (String.ofList part).utf8ByteSize then .error .nameTooLong
          else
            let next := place ++ [String.ofList part]
            match tree.entryAt? next with
            | none => .error .notFound
            | some _ => walk tree next rest

/-- The bytes of the file that a path names. -/
def readBytes (tree : Tree) (path : String) : Except ReadFailure ByteArray := do
  if path.toList.contains '\x00' then throw .nulInName
  if path = "" then throw .notFound
  if longestPath < path.utf8ByteSize then throw .nameTooLong
  let start := if Path.isAbsolute path then [] else tree.working
  let place ← tree.walk start (Path.parts path.toList)
  match tree.entryAt? place with
  | none => throw .notFound
  | some .directory => throw .isDirectory
  | some (.file content) => return content

/-- A tree as a file system. -/
def toFileSystem (tree : Tree) : FileSystem := fun path => do
  let content ← tree.readBytes path
  match Text.decode? content with
  | some text => return text
  | none => throw .notText

end Tree

end RamlCheck
