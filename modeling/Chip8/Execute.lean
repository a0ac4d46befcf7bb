import Chip8.Instruction
import Chip8.State

/-! The effect of each operation on a state whose program counter is already
past the instruction, and the fetch that puts it there. -/

set_option autoImplicit false

namespace Chip8

/-- The key held during a cycle, if any. -/
abbrev Key := Int

namespace State

/-- Program counters wrap at 2^16. -/
def skipIf (s : State) (condition : Bool) : State :=
  if condition then { s with pc := s.pc + 2 } else s

def setRegister (s : State) (r : Fin 16) (value : UInt8) : State :=
  { s with registers := s.registers.write r value }

def jump (s : State) (i : Instruction) : State := { s with pc := i.target }

def call (s : State) (i : Instruction) : Except Fault State := do
  let stack ← s.stack.push s.pc.toNat
  return { s with stack, pc := i.target }

def returnToCaller (s : State) : Except Fault State := do
  let (pc, stack) ← s.stack.pop
  return { s with stack, pc }

/-- The classic dialect adds V0 to the target, the modern one VX. -/
def jumpWithOffset (s : State) (i : Instruction) : Except Fault State :=
  let offset := match s.dialect with
    | .classic => s.registers.read Registers.first
    | .modern => s.registers.read i.x
  let target := i.nnn.toNat + offset.toNat
  if target ≥ Memory.size then .error (.jumpOutsideMemory target)
  else .ok { s with pc := UInt16.ofNat target }

/-- The classic dialect shifts VY into VX, the modern one VX in place. -/
def shiftOperand (s : State) (i : Instruction) : UInt8 :=
  match s.dialect with
  | .classic => s.registers.read i.y
  | .modern => s.registers.read i.x

/-- Operands are read before anything is written. The result goes into VX
first and the flag into VF after it, so that VF holds the flag when X is F. -/
def applyAlu (s : State) (i : Instruction) (f : Alu) : State :=
  let vx := if f.isShift then s.shiftOperand i else s.registers.read i.x
  let (result, flag) := f.apply vx.toNat (s.registers.read i.y).toNat
  let written := s.setRegister i.x (UInt8.ofNat result.toNat)
  match flag with
  | none => written
  | some raised => written.setRegister Registers.flag (UInt8.ofNat raised.toNat)

def drawRandom [Random.Generator] (s : State) (i : Instruction) : State :=
  { s.setRegister i.x (s.random.byte &&& i.nn) with random := s.random.next }

def draw (s : State) (i : Instruction) : Except Fault State := do
  Memory.check s.index.toNat i.n.val
  let bytes := s.memory.slice s.index.toNat i.n.val
  let sprite := Screen.sprite bytes (s.registers.read i.y).toNat (s.registers.read i.x).toNat
  let collision := s.screen.overlaps sprite
  return { s.setRegister Registers.flag (if collision then 1 else 0) with
    screen := s.screen.xor sprite }

/-- Without a key the program counter goes back, so that the instruction runs
again in the next cycle. -/
def waitForKey (s : State) (i : Instruction) : Option Key → State
  | none => { s with pc := s.pc - 2 }
  | some key => s.setRegister i.x (UInt8.ofNat (key % 16).toNat)

def decimalDigits (value : UInt8) : List UInt8 := [value / 100, value / 10 % 10, value % 10]

def storeDigits (s : State) (i : Instruction) : Except Fault State := do
  Memory.check s.index.toNat 3
  return { s with memory := s.memory.write s.index.toNat (decimalDigits (s.registers.read i.x)) }

/-- The classic dialect moves the index past a transferred block. -/
def indexAfter (s : State) (count : Nat) : UInt16 :=
  match s.dialect with
  | .classic => UInt16.ofNat (s.index.toNat + count)
  | .modern => s.index

def storeRegisters (s : State) (i : Instruction) : Except Fault State := do
  let count := i.x.val + 1
  Memory.check s.index.toNat count
  return { s with
    memory := s.memory.write s.index.toNat (s.registers.through i.x)
    index := s.indexAfter count }

def loadRegisters (s : State) (i : Instruction) : Except Fault State := do
  let count := i.x.val + 1
  Memory.check s.index.toNat count
  return { s with
    registers := s.registers.load (s.memory.slice s.index.toNat count)
    index := s.indexAfter count }

def glyphIndex (digit : UInt8) : UInt16 := UInt16.ofNat (Font.address (digit.toNat % 16))

/-- Runs one instruction. A fault leaves no state; an unsupported word leaves
the state as it was. -/
def execute [Random.Generator] (s : State) (i : Instruction) (key : Option Key) :
    Except Fault State :=
  let vx := s.registers.read i.x
  let vy := s.registers.read i.y
  match i.operation with
  | .clearScreen => .ok { s with screen := .blank }
  | .returnToCaller => s.returnToCaller
  | .jump => .ok (s.jump i)
  | .call => s.call i
  | .skipIfEqualImmediate => .ok (s.skipIf (vx == i.nn))
  | .skipIfNotEqualImmediate => .ok (s.skipIf (vx != i.nn))
  | .skipIfEqualRegister => .ok (s.skipIf (vx == vy))
  | .setImmediate => .ok (s.setRegister i.x i.nn)
  | .addImmediate => .ok (s.setRegister i.x (vx + i.nn))
  | .alu f => .ok (s.applyAlu i f)
  | .skipIfNotEqualRegister => .ok (s.skipIf (vx != vy))
  | .setIndex => .ok { s with index := i.target }
  | .jumpWithOffset => s.jumpWithOffset i
  | .random => .ok (s.drawRandom i)
  | .draw => s.draw i
  | .skipIfKey => .ok (s.skipIf (key.any fun k => (vx.toNat : Int) == k))
  | .skipIfNotKey => .ok (s.skipIf (key.any fun k => (vx.toNat : Int) != k))
  | .getDelayTimer => .ok (s.setRegister i.x s.delay)
  | .waitForKey => .ok (s.waitForKey i key)
  | .setDelayTimer => .ok { s with delay := vx }
  | .setSoundTimer => .ok { s with sound := vx }
  | .addToIndex => .ok { s with index := s.index + vx.toUInt16 }
  | .fontCharacter => .ok { s with index := glyphIndex vx }
  | .decimalDigits => s.storeDigits i
  | .storeRegisters => s.storeRegisters i
  | .loadRegisters => s.loadRegisters i
  | .unsupported => .ok s

/-- Reads the word at the program counter and moves past it. -/
def fetch (s : State) : Except Fault (Instruction × State) := do
  Memory.check s.pc.toNat 2
  let instruction := Instruction.ofBytes (s.memory.read s.pc.toNat) (s.memory.read (s.pc.toNat + 1))
  return (instruction, { s with pc := s.pc + 2 })

end State

namespace Instruction

/-- A word without an operation is reported and passed over. -/
def notices (i : Instruction) : List Log.Notice :=
  match i.operation with
  | .unsupported =>
      [⟨.warning, "chip8vm.emulator", "0x" ++ Text.hex 4 i.word.toNat ++ " not supported, skipping"⟩]
  | _ => []

/-- The operations after which the screen is handed to the display. -/
def refreshesDisplay (i : Instruction) : Bool :=
  match i.operation with
  | .draw | .clearScreen => true
  | _ => false

end Instruction

end Chip8
