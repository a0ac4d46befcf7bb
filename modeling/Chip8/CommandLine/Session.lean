import Chip8.CommandLine.Options
import Chip8.Machine
import Chip8.Rom

/-! A whole run from the command line: the program is loaded, a window opened
unless the run is headless, and the machine run. No key is pressed during a run
started here. -/

set_option autoImplicit false

namespace Chip8.CommandLine

/-- Errors that end a run without a status. -/
inductive Crash where
  | seedTooLarge
  | nullInName
  | window (error : WindowError)
  | clock (error : ClockError Number)
  | arithmetic (error : ArithmeticError)

def Crash.message : Crash → String
  | seedTooLarge => "Python int too large to convert to C long"
  | nullInName => Rom.Error.nullInName.message
  | window error => error.message
  | clock error => error.message
  | arithmetic error => error.message

inductive Ending where
  /-- The run is over, with the status that it reports. -/
  | status (code : Nat)
  | usage (error : UsageError)
  | help
  | crash (error : Crash)

structure Session where
  level : Log.Level
  notices : List Log.Notice
  ending : Ending

namespace Session

/-- The printed lines, without the times that loggers put before them. -/
def lines (s : Session) : List String := Log.Notice.lines s.level s.notices

def source : String := "chip8vm"

def fatalNotice (kind message : String) : Log.Notice :=
  ⟨.critical, source, kind ++ ": " ++ message⟩

def exitNotice : Log.Notice := ⟨.info, source, "Exiting"⟩

def captionFor (rom : String) : String := "CHIP-8 - " ++ rom

/-- A window is needed unless the run is headless. -/
def openWindow (settings : Settings) (rom : String) : Except WindowError (Option Window) :=
  if settings.headless then .ok none
  else (Window.create settings.scale settings.scheme.name (captionFor rom)).map some

/-- Runs a loaded machine; a fault is fatal and gives status 1. -/
def runMachine (m : Machine) (limit : Option Int) : List Log.Notice × Ending :=
  match m.run limit with
  | (ended, .ok _) => (ended.notices.toList ++ [exitNotice], .status 0)
  | (ended, .error (.fault f)) => (ended.notices.toList ++ [fatalNotice f.kind f.message], .status 1)
  | (ended, .error (.arithmetic e)) => (ended.notices.toList, .crash (.arithmetic e))

def startMachine (settings : Settings) (rom : String) (state : State) : List Log.Notice × Ending :=
  match openWindow settings rom with
  | .error e => ([], .crash (.window e))
  | .ok _ =>
      match Machine.create state settings.delay settings.rate [] with
      | .error e => ([], .crash (.clock e))
      | .ok machine => runMachine machine settings.cycles

def run (read : String → Except Files.OpenError Files.Contents) (rom : String)
    (settings : Settings) : List Log.Notice × Ending :=
  match Random.Key.ofSeed? settings.seed with
  | none => ([], .crash .seedTooLarge)
  | some key =>
      let initial := State.initial key (if settings.modern then .modern else .classic)
      match Rom.load read initial rom with
      | (notices, .error .nullInName) => (notices, .crash .nullInName)
      | (notices, .error e) => (notices ++ [fatalNotice e.kind e.message], .status 1)
      | (notices, .ok loaded) =>
          let (later, ending) := startMachine settings rom loaded
          (notices ++ later, ending)

/-- What happens for a list of arguments, given how files are read. -/
def ofArguments (read : String → Except Files.OpenError Files.Contents) (arguments : List String) :
    Session :=
  match Request.parse arguments with
  | .error e => ⟨.info, [], .usage e⟩
  | .ok .help => ⟨.info, [], .help⟩
  | .ok (.run rom settings) =>
      let (notices, ending) := run read rom settings
      ⟨settings.level, notices, ending⟩

end Session

end Chip8.CommandLine
