import RamlCheck.CommandLine.Arguments
import RamlCheck.Validation

/-!
# The program

What the program does is a function of its arguments, the environment, standard
input and the files it reads.  `Response` is what it leaves behind: an exit code,
what it wrote, and the message of the error that ended it.
-/

namespace RamlCheck.CommandLine

/-- What the program leaves behind. -/
structure Response where
  code : Nat
  output : List UInt8
  complaint : Option String

/-- Standard input as the program finds it. -/
structure InputStream where
  isTerminal : Bool
  bytes : ByteArray

/-- Standard input as a run sees it; a pipe is read at once. -/
def InputStream.open (stream : InputStream) : Except Fatal StandardInput :=
  if stream.isTerminal then .ok (.terminal stream.bytes) else StandardInput.ofPipe stream.bytes

/-- What is left behind when an error ends the program. -/
def abort (output : List UInt8) (fatal : Fatal) : Response :=
  { code := fatalCode, output, complaint := some ("Error: " ++ fatal.message ++ "\n") }

/-- What is left behind when the arguments do not make the program run. -/
def refuse (environment : Environment) (refusal : Refusal) : Response :=
  let message := refusal.message environment
  if refusal.code = 0 then
    { code := 0, output := Sink.bytesOf message, complaint := none }
  else { code := refusal.code, output := [], complaint := some message }

/-- What a run is told by the arguments. -/
def settingsOf (environment : Environment) (colours : Bool) (arguments : Arguments) : Settings :=
  let colourOff := arguments.noColor || (environment.lookup "NO_COLOR").isSome
  { policy := arguments.policy
    mode := arguments.mode
    theme := Theme.choose colourOff colours
    usage := helpText environment }

/-- Runs the program on arguments that have been read. -/
def runArguments (environment : Environment) (colours : Bool) (files : FileSystem)
    (stream : InputStream) (arguments : Arguments) : Response :=
  match stream.open with
  | .error fatal => abort [] fatal
  | .ok stdin =>
      let transcript := run (settingsOf environment colours arguments)
        (validator .builtin files) arguments.files stdin .boundless
      match transcript.result with
      | .ok exit => { code := exit.code, output := transcript.sink.written, complaint := none }
      | .error fatal => abort transcript.sink.written fatal

/-- Runs the program. -/
def program (environment : Environment) (colours : Bool) (files : FileSystem)
    (stream : InputStream) (arguments : List String) : Response :=
  match parse environment arguments with
  | .error refusal => refuse environment refusal
  | .ok arguments => runArguments environment colours files stream arguments

end RamlCheck.CommandLine
