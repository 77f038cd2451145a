import RamlCheck.CommandLine.Program
import RamlCheck.Document.Reference

/-!
# The command

The command reads its arguments, the environment, standard input and the files
that the run asks for; what it then does is `CommandLine.program`.

A run asks for the files that its arguments name, and for what the documents in
them refer to.  References inside of included files are not followed, so reading
these two layers is enough.
-/

namespace RamlCheck.Command

/-- The variables of the environment that the program looks at. -/
def settingNames : List String :=
  "NO_COLOR" :: Flag.all.filterMap Flag.settingName?

/-- The variables that are set. -/
def environment : IO CommandLine.Environment := do
  let mut found := []
  for name in settingNames do
    if let some value ← IO.getEnv name then
      found := found ++ [(name, value)]
  return found

/-- The number of an error of the operating system, which may come negated. -/
def errorNumber (code : UInt32) : UInt32 :=
  if code < 2147483648 then code else 0 - code

/-- Why a file could not be read. -/
def failureOf : IO.Error → ReadFailure
  | .noFileOrDirectory .. => .notFound
  | .inappropriateType _ code _ => if errorNumber code = 21 then .isDirectory else .notDirectory
  | .invalidArgument _ code details =>
      if errorNumber code = 36 then .nameTooLong else .other details
  | .permissionDenied .. => .other "Permission denied (os error 13)"
  | error => .other (toString error)

/-- What reading a file as a text gives. -/
def readText (path : String) : IO (Except ReadFailure String) := do
  if path.toList.contains '\x00' then return .error .nulInName
  try
    let bytes ← IO.FS.readBinFile path
    return match Text.decode? bytes with
      | some text => .ok text
      | none => .error .notText
  catch error => return .error (failureOf error)

/-- What reading some files gives, each beside its path. -/
def readAll (paths : List String) : IO (List (String × Except ReadFailure String)) :=
  paths.mapM fun path => do return (path, ← readText path)

/-- The sources of a run, as far as they are known before it. -/
def sources (stream : CommandLine.InputStream) (arguments : List String) : List Source :=
  let standard := ((Text.decode? stream.bytes).map (.content Input.standardName)).toList
  standard ++ (arguments.filter (· ≠ Input.placeholder)).map .file

/-- The files that a run asks for. -/
def snapshot (stream : CommandLine.InputStream) (arguments : List String) : IO FileSystem := do
  let named ← readAll (arguments.filter (· ≠ Input.placeholder))
  let documents := (sources stream arguments).filterMap fun source =>
    (source.load (FileSystem.ofList named)).toOption
  return FileSystem.ofList (named ++ (← readAll (documents.flatMap Document.references)))

/-- Reads a stream to its end. -/
partial def drain (stream : IO.FS.Stream) (bytes : ByteArray) : IO ByteArray := do
  let more ← stream.read 65536
  if more.isEmpty then return bytes else drain stream (bytes ++ more)

/-- Standard input.  A terminal is read only if an argument asks for it. -/
def standardInput (arguments : List String) : IO CommandLine.InputStream := do
  let stream ← IO.getStdin
  let isTerminal ← stream.isTty
  let wanted := !isTerminal || arguments.contains Input.placeholder
  let bytes ← if wanted then drain stream ByteArray.empty else pure ByteArray.empty
  return { isTerminal, bytes }

/-- Writes what a run leaves behind. -/
def deliver (response : CommandLine.Response) : IO UInt32 := do
  let output ← IO.getStdout
  output.write ⟨response.output.toArray⟩
  output.flush
  if let some complaint := response.complaint then
    (← IO.getStderr).putStr complaint
  return response.code.toUInt32

end RamlCheck.Command

open RamlCheck RamlCheck.Command in
/-- Runs the program on its arguments. -/
def main (arguments : List String) : IO UInt32 := do
  let environment ← environment
  match CommandLine.parse environment arguments with
  | .error refusal => deliver (CommandLine.refuse environment refusal)
  | .ok parsed =>
      let stream ← standardInput parsed.files
      let files ← snapshot stream parsed.files
      let colours ← (← IO.getStdout).isTty
      deliver (CommandLine.runArguments environment colours files stream parsed)
