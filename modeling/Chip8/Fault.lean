import Chip8.Text.Hexadecimal

/-! The conditions that stop a machine for good, and the text of each. -/

set_option autoImplicit false

namespace Chip8

inductive Fault where
  | programTooLarge (size : Nat)
  | stackFull
  | stackEmpty
  | outsideMemory (address length : Int)
  | returnOutsideMemory (address : Nat)
  | jumpOutsideMemory (address : Nat)
  deriving DecidableEq, Repr

namespace Fault

/-- The class of a fault, as a log names it. -/
def kind : Fault → String
  | programTooLarge _ => "ProgramTooLargeError"
  | stackFull => "StackOverflowError"
  | stackEmpty => "StackUnderflowError"
  | outsideMemory .. | returnOutsideMemory _ | jumpOutsideMemory _ => "MemoryAccessError"

/-- A range is named by its first and its last address; an empty range ends
before it starts. -/
def message : Fault → String
  | programTooLarge size =>
      "Program of " ++ toString size ++ " bytes does not fit in 3584 bytes of program memory"
  | stackFull => "Call stack full (16 return addresses)"
  | stackEmpty => "Return with empty call stack"
  | outsideMemory address length =>
      "Address range 0x" ++ Text.hex 4 address ++ "-0x" ++ Text.hex 4 (address + length - 1) ++
        " outside memory"
  | returnOutsideMemory address => "Return address 0x" ++ Text.hex 4 address ++ " outside memory"
  | jumpOutsideMemory address => "Jump target 0x" ++ Text.hex 4 address ++ " outside memory"

end Fault

end Chip8
