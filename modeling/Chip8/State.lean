import Chip8.CallStack
import Chip8.Font
import Chip8.Log.Notice
import Chip8.Random
import Chip8.Registers
import Chip8.Screen

/-! The state of the virtual machine and how a program gets into it. -/

set_option autoImplicit false

namespace Chip8

/-- The two readings of the shifts, of the jump with offset and of the block
transfers. -/
inductive Dialect where
  | classic
  | modern
  deriving DecidableEq, Repr

structure State where
  random : Random.Key
  memory : Memory
  pc : UInt16
  screen : Screen
  stack : CallStack
  delay : UInt8
  sound : UInt8
  registers : Registers
  index : UInt16
  dialect : Dialect

namespace State

/-- Memory holds the font and nothing else. -/
def initial (random : Random.Key) (dialect : Dialect) : State where
  random := random
  memory := Memory.zero.write Font.start Font.glyphs
  pc := UInt16.ofNat Memory.programStart
  screen := .blank
  stack := .empty
  delay := 0
  sound := 0
  registers := .zero
  index := 0
  dialect := dialect

def loadProgram (s : State) (program : List UInt8) : Except Fault State :=
  if Memory.programStart + program.length > Memory.size then .error (.programTooLarge program.length)
  else .ok { s with memory := s.memory.write Memory.programStart program }

/-- Loading says how much was loaded, unless it was nothing. -/
def loadNotices (program : List UInt8) : List Log.Notice :=
  if program.isEmpty then []
  else [⟨.info, "chip8vm.state", "Loaded " ++ toString program.length ++ " bytes at 0x" ++
    Text.hex 3 Memory.programStart⟩]

/-- Both timers count down by the ticks that passed and stop at zero. -/
def elapse (s : State) (ticks : Int) : State :=
  { s with
    delay := UInt8.ofNat (s.delay.toNat - ticks.toNat)
    sound := UInt8.ofNat (s.sound.toNat - ticks.toNat) }

end State

end Chip8
