import Chip8.Execute
import Chip8.Proofs.CallStack
import Chip8.Proofs.Fallible

/-! The fault of an instruction, computed before anything is executed. It depends
on the state and the word alone; the sampled key plays no part in it. -/

set_option autoImplicit false

namespace Chip8

open Fallible

theorem Memory.check_natCast (address length : Nat) :
    Memory.check address length =
      if address + length ≤ Memory.size then .ok ()
      else .error (.outsideMemory address length) := by
  unfold check
  by_cases inside : address + length ≤ size
  · rw [if_pos inside, if_neg (by omega)]
  · rw [if_neg inside, if_pos (by omega)]

theorem Memory.check_of_inside {address length : Nat} (inside : address + length ≤ Memory.size) :
    Memory.check address length = .ok () := by
  rw [check_natCast, if_pos inside]

theorem Instruction.toNat_target (i : Instruction) : i.target.toNat = i.nnn.toNat := by
  have bound : i.nnn.toNat < 4096 := i.nnn.isLt
  simp only [target, UInt16.toNat_ofBitVec, BitVec.toNat_setWidth]
  exact Nat.mod_eq_of_lt (by omega)

namespace State

/-- What a jump with offset adds to its target: V0 in the classic dialect, VX in
the modern one. -/
def offset (s : State) (i : Instruction) : UInt8 :=
  match s.dialect with
  | .classic => s.registers.read Registers.first
  | .modern => s.registers.read i.x

/-- The address that a jump with offset goes to. -/
def offsetTarget (s : State) (i : Instruction) : Nat := i.nnn.toNat + (s.offset i).toNat

/-- The fault of an access to `length` bytes from `address` on. -/
def rangeFault? (address length : Nat) : Option Fault :=
  if address + length ≤ Memory.size then none else some (.outsideMemory address length)

def fault? (s : State) (i : Instruction) : Option Fault :=
  match i.operation with
  | .returnToCaller => if s.stack.depth = 0 then some .stackEmpty else none
  | .call =>
      if s.stack.depth = 16 then some .stackFull
      else if Memory.size ≤ s.pc.toNat then some (.returnOutsideMemory s.pc.toNat)
      else none
  | .jumpWithOffset =>
      if Memory.size ≤ s.offsetTarget i then some (.jumpOutsideMemory (s.offsetTarget i)) else none
  | .draw => rangeFault? s.index.toNat i.n.val
  | .decimalDigits => rangeFault? s.index.toNat 3
  | .storeRegisters | .loadRegisters => rangeFault? s.index.toNat (i.x.val + 1)
  | _ => none

theorem check_bind_eq_error_iff {α : Type} {address length : Nat} {f : Fault}
    {next : Unit → Except Fault α} (succeeds : ∀ f, next () ≠ .error f) :
    Memory.check address length >>= next = .error f ↔ rangeFault? address length = some f := by
  rw [Memory.check_natCast, rangeFault?]
  by_cases inside : address + length ≤ Memory.size <;> simp [inside, succeeds]

theorem returnToCaller_eq_error_iff {s : State} {f : Fault} :
    s.returnToCaller = .error f ↔ s.stack.depth = 0 ∧ f = .stackEmpty := by
  rw [returnToCaller, bind_eq_error_iff, CallStack.pop_eq_error_iff]
  simp [pure_eq_ok]

theorem call_eq_error_iff {s : State} {i : Instruction} {f : Fault} :
    s.call i = .error f ↔
      (s.stack.depth = 16 ∧ f = .stackFull) ∨
      (s.stack.depth < 16 ∧ Memory.size ≤ s.pc.toNat ∧ f = .returnOutsideMemory s.pc.toNat) := by
  rw [call, bind_eq_error_iff, CallStack.push_eq_error_iff]
  simp [pure_eq_ok]

theorem jumpWithOffset_eq (s : State) (i : Instruction) :
    s.jumpWithOffset i =
      if Memory.size ≤ s.offsetTarget i then .error (.jumpOutsideMemory (s.offsetTarget i))
      else .ok { s with pc := UInt16.ofNat (s.offsetTarget i) } := rfl

theorem execute_eq_error_iff [Random.Generator] {s : State} {i : Instruction} {key : Option Key} {f : Fault} :
    s.execute i key = .error f ↔ s.fault? i = some f := by
  unfold execute fault?
  cases i.operation with
  | returnToCaller =>
    simp only [returnToCaller_eq_error_iff]
    by_cases empty : s.stack.depth = 0 <;> simp [empty, eq_comm]
  | call =>
    have bound := s.stack.depth_le
    simp only [call_eq_error_iff]
    by_cases full : s.stack.depth = 16
    · simp [full, eq_comm]
    · have room : s.stack.depth < 16 := by omega
      by_cases outside : Memory.size ≤ s.pc.toNat <;> simp [full, room, outside, eq_comm]
  | jumpWithOffset =>
    simp only [jumpWithOffset_eq]
    by_cases outside : Memory.size ≤ s.offsetTarget i <;> simp [outside]
  | draw => exact check_bind_eq_error_iff (by simp [pure_eq_ok])
  | decimalDigits => exact check_bind_eq_error_iff (by simp [pure_eq_ok])
  | storeRegisters => exact check_bind_eq_error_iff (by simp [pure_eq_ok])
  | loadRegisters => exact check_bind_eq_error_iff (by simp [pure_eq_ok])
  -- Every other operation has a next state.
  | _ => simp

theorem execute_eq_ok_iff [Random.Generator] {s : State} {i : Instruction} {key : Option Key} :
    (∃ t, s.execute i key = .ok t) ↔ s.fault? i = none := by
  rw [exists_ok_iff, Option.eq_none_iff_forall_ne_some]
  exact forall_congr' fun f => not_congr execute_eq_error_iff

theorem fetch_eq (s : State) :
    s.fetch =
      if s.pc.toNat + 2 ≤ Memory.size then
        .ok (Instruction.ofBytes (s.memory.read s.pc.toNat) (s.memory.read (s.pc.toNat + 1)),
          { s with pc := s.pc + 2 })
      else .error (.outsideMemory s.pc.toNat 2) := by
  have check := Memory.check_natCast s.pc.toNat 2
  unfold fetch
  rw [show ((2 : Int)) = ((2 : Nat) : Int) from rfl, check]
  by_cases inside : s.pc.toNat + 2 ≤ Memory.size <;> simp [inside, pure_eq_ok]

theorem fetch_eq_ok {s t : State} {i : Instruction} (h : s.fetch = .ok (i, t)) :
    s.pc.toNat + 2 ≤ Memory.size ∧ t = { s with pc := s.pc + 2 } := by
  rw [fetch_eq] at h
  split at h
  case isTrue inside =>
    cases h
    exact ⟨inside, rfl⟩
  case isFalse => cases h

end State

end Chip8
