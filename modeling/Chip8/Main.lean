import Chip8.CommandLine.Session

/-! The command line program. It reads the file that the arguments name, runs
the session and prints what the session says. The status is that of the run; 2
stands for arguments that cannot be read and 1 for a run that breaks down. -/

set_option autoImplicit false

namespace Chip8.CommandLine

/-- The error for a number of the system, which may come negated. Its words are
used where the library has none. -/
def openErrorOf (code : UInt32) (reason : String) : Files.OpenError :=
  let number := code.toInt32.toInt.natAbs
  (Files.OpenError.known.find? fun e => e.code = number).getD ⟨number, reason⟩

def openError : IO.Error → Files.OpenError
  | .noFileOrDirectory _ code reason => openErrorOf code reason
  | .permissionDenied _ code reason => openErrorOf code reason
  | .inappropriateType _ code reason => openErrorOf code reason
  | .invalidArgument _ code reason => openErrorOf code reason
  | .resourceExhausted _ code reason => openErrorOf code reason
  | .noSuchThing _ code reason => openErrorOf code reason
  | .hardwareFault code reason => openErrorOf code reason
  | .otherError code reason => openErrorOf code reason
  | e => ⟨0, e.toString⟩

def readProgram (name : String) : IO (Except Files.OpenError Files.Contents) := do
  try
    let bytes ← IO.FS.readBinFile name
    return .ok bytes.toList
  catch e =>
    return .error (openError e)

def printEnding : Ending → IO UInt32
  | .status code => return UInt32.ofNat code
  | .help => do
      IO.println Request.helpText
      return 0
  | .usage e => do
      IO.eprintln ("chip8vm: error: " ++ e.message)
      return 2
  | .crash c => do
      IO.eprintln c.message
      return 1

def runSession (arguments : List String) : IO UInt32 := do
  let contents ← match Request.parse arguments with
    | .ok (.run rom _) => readProgram rom
    | _ => pure (.error .notFound)
  let session := Session.ofArguments (fun _ => contents) arguments
  for line in session.lines do
    IO.println line
  printEnding session.ending

end Chip8.CommandLine

def main (arguments : List String) : IO UInt32 := Chip8.CommandLine.runSession arguments
