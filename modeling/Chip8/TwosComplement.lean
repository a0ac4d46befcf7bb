/-! Bitwise operations on integers of any size and sign, read in two's
complement: a negative number has infinitely many leading ones. Also the range
of the numbers that a 64-bit word holds. -/

set_option autoImplicit false

namespace Chip8.TwosComplement

/-- The bits of `a` that are clear in `b`. -/
def clear (a b : Nat) : Nat := a ^^^ (a &&& b)

def and : Int → Int → Int
  | .ofNat a, .ofNat b => .ofNat (a &&& b)
  | .ofNat a, .negSucc b => .ofNat (clear a b)
  | .negSucc a, .ofNat b => .ofNat (clear b a)
  | .negSucc a, .negSucc b => .negSucc (a ||| b)

def or : Int → Int → Int
  | .ofNat a, .ofNat b => .ofNat (a ||| b)
  | .ofNat a, .negSucc b => .negSucc (clear b a)
  | .negSucc a, .ofNat b => .negSucc (clear a b)
  | .negSucc a, .negSucc b => .negSucc (a &&& b)

def xor : Int → Int → Int
  | .ofNat a, .ofNat b => .ofNat (a ^^^ b)
  | .ofNat a, .negSucc b => .negSucc (a ^^^ b)
  | .negSucc a, .ofNat b => .negSucc (a ^^^ b)
  | .negSucc a, .negSucc b => .ofNat (a ^^^ b)

/-- Whether 64 bits hold the number. -/
def fitsInWord (i : Int) : Bool := decide (-0x8000000000000000 ≤ i ∧ i < 0x8000000000000000)

end Chip8.TwosComplement
