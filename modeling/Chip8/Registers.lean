/-! The sixteen byte registers. VF also receives flags. -/

set_option autoImplicit false

namespace Chip8

abbrev Registers := Vector UInt8 16

namespace Registers

abbrev count : Nat := 16

abbrev first : Fin 16 := ⟨0, by decide⟩

abbrev flag : Fin 16 := 15

def zero : Registers := Vector.replicate 16 0

def read (v : Registers) (r : Fin 16) : UInt8 := v[r]

def write (v : Registers) (r : Fin 16) (value : UInt8) : Registers := v.set r.val value r.isLt

/-- V0 up to and including `last`. -/
def through (v : Registers) (last : Fin 16) : List UInt8 := v.toList.take (last.val + 1)

/-- Loads consecutive registers from V0 on; bytes beyond VF are dropped. -/
def load (v : Registers) (bytes : List UInt8) : Registers :=
  Vector.ofFn fun r => bytes[r.val]?.getD (v.read r)

@[simp] theorem read_write_self (v : Registers) (r : Fin 16) (value : UInt8) :
    (v.write r value).read r = value := by
  simp [read, write]

theorem read_write_of_ne (v : Registers) {r q : Fin 16} (value : UInt8) (h : q ≠ r) :
    (v.write r value).read q = v.read q := by
  have : r.val ≠ q.val := fun e => h (Fin.ext e.symm)
  simp [read, write, this]

theorem length_through (v : Registers) (last : Fin 16) :
    (v.through last).length = last.val + 1 := by
  have bound := last.isLt
  rw [through, List.length_take, Vector.length_toList]
  omega

theorem getElem?_through (v : Registers) {last r : Fin 16} (within : r ≤ last) :
    (v.through last)[r.val]? = some (v.read r) := by
  have within : r.val < last.val + 1 := Nat.lt_succ_of_le within
  simp [through, read, within]

theorem read_load (v : Registers) (bytes : List UInt8) (r : Fin 16) :
    (v.load bytes).read r = bytes[r.val]?.getD (v.read r) := by
  simp [load, read]

end Registers

end Chip8
