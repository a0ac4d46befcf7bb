import Chip8.Fault

/-! The 4096 bytes of memory. Every access is preceded by `Memory.check`, which
refuses a range that leaves memory. -/

set_option autoImplicit false

namespace Chip8

abbrev Memory := Vector UInt8 4096

namespace Memory

abbrev size : Nat := 4096

abbrev programStart : Nat := 0x200

abbrev maxProgramSize : Nat := size - programStart

def zero : Memory := Vector.replicate 4096 0

/-- Accepts the range of `length` bytes from `address` when its two ends lie
in memory. -/
def check (address length : Int) : Except Fault Unit :=
  if address < 0 ∨ address + length > size then .error (.outsideMemory address length) else .ok ()

/-- Reads a byte; an address outside memory reads as zero. -/
def read (m : Memory) (address : Nat) : UInt8 := m[address]?.getD 0

def slice (m : Memory) (start length : Nat) : List UInt8 :=
  (List.range length).map fun i => m.read (start + i)

/-- Writes consecutive bytes; those that fall outside memory are dropped. -/
def write (m : Memory) (start : Nat) : List UInt8 → Memory
  | [] => m
  | byte :: rest => write (m.setIfInBounds start byte) (start + 1) rest

theorem length_slice (m : Memory) (start length : Nat) : (m.slice start length).length = length := by
  rw [slice, List.length_map, List.length_range]

theorem getElem?_slice (m : Memory) (start length k : Nat) :
    (m.slice start length)[k]? = if k < length then some (m.read (start + k)) else none := by
  by_cases within : k < length <;> simp [slice, within]

theorem read_write_of_lt (m : Memory) (start address : Nat) (bytes : List UInt8)
    (before : address < start) : (m.write start bytes).read address = m.read address := by
  induction bytes generalizing m start with
  | nil => rfl
  | cons byte rest ih =>
      rw [write, ih _ _ (by omega)]
      simp only [read, Vector.getElem?_setIfInBounds, if_neg (by omega : ¬ start = address)]

theorem read_write_of_le (m : Memory) (start address : Nat) (bytes : List UInt8)
    (behind : start + bytes.length ≤ address) : (m.write start bytes).read address = m.read address := by
  induction bytes generalizing m start with
  | nil => rfl
  | cons byte rest ih =>
      rw [List.length_cons] at behind
      rw [write, ih _ _ (by omega)]
      simp only [read, Vector.getElem?_setIfInBounds, if_neg (by omega : ¬ start = address)]

theorem read_write_of_outside (m : Memory) {start address : Nat} {bytes : List UInt8}
    (outside : address < start ∨ start + bytes.length ≤ address) :
    (m.write start bytes).read address = m.read address := by
  rcases outside with before | behind
  · exact read_write_of_lt m start address bytes before
  · exact read_write_of_le m start address bytes behind

theorem read_write (m : Memory) (start address : Nat) (bytes : List UInt8)
    (inside : address < size) :
    (m.write start bytes).read address =
      if start ≤ address then (bytes[address - start]?).getD (m.read address)
      else m.read address := by
  induction bytes generalizing m start with
  | nil => simp [write]
  | cons byte rest ih =>
      by_cases before : address < start
      · rw [read_write_of_lt _ _ _ _ before, if_neg (by omega)]
      · rw [write, ih, if_pos (by omega : start ≤ address)]
        by_cases here : start = address
        · subst here
          rw [if_neg (by omega)]
          simp [read, inside]
        · rw [if_pos (by omega)]
          obtain ⟨k, rfl⟩ : ∃ k, address = start + 1 + k := ⟨address - (start + 1), by omega⟩
          have shift : start + 1 + k - start = k + 1 := by omega
          simp [read, shift, here]

theorem read_write_add (m : Memory) {start k : Nat} {bytes : List UInt8}
    (inside : start + bytes.length ≤ size) (within : k < bytes.length) :
    (m.write start bytes).read (start + k) = bytes[k] := by
  rw [read_write _ _ _ _ (by omega), if_pos (Nat.le_add_right start k), Nat.add_sub_cancel_left,
    List.getElem?_eq_getElem within, Option.getD_some]

end Memory

end Chip8
