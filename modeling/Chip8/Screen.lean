/-! The 32 × 64 one-bit screen. A row is a bit vector whose most significant bit
is column 0. A sprite is a screen of its own: drawing it is an exclusive or, and
a collision is a pixel that both have on. -/

set_option autoImplicit false

namespace Chip8

abbrev Screen := Vector (BitVec 64) 32

namespace Screen

abbrev width : Nat := 64

abbrev height : Nat := 32

def blank : Screen := Vector.replicate 32 0

def pixel (s : Screen) (row : Fin 32) (column : Fin 64) : Bool := s[row].getMsbD column

/-- Eight pixels from `column` on, wrapping at the right edge. -/
def spriteRow (byte : UInt8) (column : Nat) : BitVec 64 :=
  (byte.toBitVec ++ (0 : BitVec 56)).rotateRight column

/-- One sprite row for each byte from `row` on, wrapping at both edges. -/
def sprite (bytes : List UInt8) (row column : Nat) : Screen :=
  Vector.ofFn fun r =>
    match bytes[(r.val + 32 - row % 32) % 32]? with
    | some byte => spriteRow byte column
    | none => 0

def xor (a b : Screen) : Screen := Vector.zipWith (· ^^^ ·) a b

def overlaps (a b : Screen) : Bool := (Vector.zipWith (· &&& ·) a b).any (· ≠ 0)

@[simp] theorem pixel_blank (row : Fin 32) (column : Fin 64) : blank.pixel row column = false := by
  simp [blank, pixel]

theorem pixel_xor (a b : Screen) (row : Fin 32) (column : Fin 64) :
    (a.xor b).pixel row column = (a.pixel row column ^^ b.pixel row column) := by
  simp [xor, pixel]

theorem xor_comm (a b : Screen) : a.xor b = b.xor a := by
  ext r h : 1
  simp [xor, BitVec.xor_comm]

theorem xor_assoc (a b c : Screen) : (a.xor b).xor c = a.xor (b.xor c) := by
  ext r h : 1
  simp [xor, BitVec.xor_assoc]

@[simp] theorem xor_self (a : Screen) : a.xor a = blank := by
  ext r h : 1
  simp [xor, blank]

@[simp] theorem xor_blank (a : Screen) : a.xor blank = a := by
  ext r h : 1
  simp [xor, blank]

end Screen

end Chip8
