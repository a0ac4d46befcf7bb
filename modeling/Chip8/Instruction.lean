import Chip8.Operation

/-! A 16-bit word, its operand fields and the operation it encodes. Fields are
typed by what they address: `x` and `y` name registers, `nn` is a byte, `nnn` an
address. -/

set_option autoImplicit false

namespace Chip8

structure Instruction where
  word : BitVec 16
  deriving DecidableEq, Repr

namespace Instruction

/-- Words are read modulo 2^16, so any integer stands for one. -/
def ofInt (i : Int) : Instruction := ⟨BitVec.ofInt 16 i⟩

def ofBytes (high low : UInt8) : Instruction := ⟨high.toBitVec ++ low.toBitVec⟩

def opcode (i : Instruction) : Fin 16 := (i.word.extractLsb' 12 4).toFin

def x (i : Instruction) : Fin 16 := (i.word.extractLsb' 8 4).toFin

def y (i : Instruction) : Fin 16 := (i.word.extractLsb' 4 4).toFin

def n (i : Instruction) : Fin 16 := (i.word.extractLsb' 0 4).toFin

def nn (i : Instruction) : UInt8 := ⟨i.word.extractLsb' 0 8⟩

def nnn (i : Instruction) : BitVec 12 := i.word.extractLsb' 0 12

/-- The address NNN, widened to a program counter. -/
def target (i : Instruction) : UInt16 := ⟨i.nnn.zeroExtend 16⟩

def operation (i : Instruction) : Operation :=
  (Operation.ofFields? i.opcode.val i.x.val i.n.val i.nn.toNat).getD .unsupported

theorem toNat_ofBytes (high low : UInt8) :
    (ofBytes high low).word.toNat = 256 * high.toNat + low.toNat := by
  have bound : low.toNat < 2 ^ 8 := low.toNat_lt
  rw [ofBytes, BitVec.toNat_append, UInt8.toNat_toBitVec, UInt8.toNat_toBitVec,
    ← Nat.shiftLeft_add_eq_or_of_lt bound, Nat.shiftLeft_eq, Nat.mul_comm]

theorem operation_eq_ofFields? (i : Instruction) :
    Operation.ofFields? i.opcode.val i.x.val i.n.val i.nn.toNat = some i.operation := by
  have known : (Operation.ofFields? i.opcode.val i.x.val i.n.val i.nn.toNat).isSome = true :=
    (Operation.ofFields?_isSome_iff _ _ _ _).mpr (by have := i.opcode.isLt; omega)
  obtain ⟨op, h⟩ := Option.isSome_iff_exists.mp known
  simp [operation, h]

end Instruction

end Chip8
