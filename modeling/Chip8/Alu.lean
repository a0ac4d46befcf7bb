import Chip8.TwosComplement

/-! The arithmetic functions of the 8XYN family. Each takes the values of VX
and VY and returns the new VX together with the new VF, if it sets one. They
are total on all integers; on bytes they return bytes. -/

set_option autoImplicit false

namespace Chip8

inductive Alu where
  | set
  | or
  | and
  | xor
  | add
  | subtract
  | shiftRight
  | subtractFrom
  | shiftLeft
  deriving DecidableEq, Repr

namespace Alu

def byte (value : Int) : Int := value % 256

def flag (raised : Bool) : Int := if raised then 1 else 0

/-- Subtraction raises the flag when there is no borrow; a shift moves the bit
it pushes out into the flag. -/
def apply (f : Alu) (vx vy : Int) : Int × Option Int :=
  match f with
  | set => (vy, none)
  | or => (TwosComplement.or vx vy, none)
  | and => (TwosComplement.and vx vy, none)
  | xor => (TwosComplement.xor vx vy, none)
  | add => (byte (vx + vy), some (flag (decide (vx + vy > 255))))
  | subtract => (byte (vx - vy), some (flag (decide (vx ≥ vy))))
  | shiftRight => (vx / 2, some (vx % 2))
  | subtractFrom => (byte (vy - vx), some (flag (decide (vy ≥ vx))))
  | shiftLeft => (byte (2 * vx), some (vx / 128 % 2))

/-- The shifts are the functions whose operand depends on the dialect. -/
def isShift : Alu → Bool
  | shiftRight | shiftLeft => true
  | _ => false

end Alu

end Chip8
