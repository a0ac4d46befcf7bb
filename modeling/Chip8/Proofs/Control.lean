import Chip8.Proofs.Faults

/-! Where control goes: what an executed instruction does to the program counter
and to the call stack, said once for all operations. -/

set_option autoImplicit false

namespace Chip8

open Fallible

theorem Instruction.target_lt (i : Instruction) : i.target.toNat < Memory.size := by
  rw [toNat_target]
  exact i.nnn.isLt

namespace State

/-- The ways in which an instruction takes a state, already past it, to the next. -/
inductive Control (s : State) (i : Instruction) (t : State) : Prop where
  | called (operation : i.operation = .call) (pushed : s.stack.push s.pc.toNat = .ok t.stack)
      (pc : t.pc = i.target)
  | returned (operation : i.operation = .returnToCaller)
      (popped : s.stack.pop = .ok (t.pc, t.stack))
  | jumped (operation : i.operation = .jump ∨ i.operation = .jumpWithOffset)
      (stack : t.stack = s.stack) (inside : t.pc.toNat < Memory.size)
  | rewound (operation : i.operation = .waitForKey) (stack : t.stack = s.stack)
      (pc : t.pc = s.pc - 2)
  /-- On to the next instruction or over it. -/
  | passed (skips : Bool) (stack : t.stack = s.stack) (pc : t.pc = (s.skipIf skips).pc)

section
variable {s t : State} {i : Instruction} {key : Option Key}

@[simp] theorem stack_skipIf (condition : Bool) : (s.skipIf condition).stack = s.stack := by
  cases condition <;> rfl

@[simp] theorem pc_elapse (ticks : Int) : (s.elapse ticks).pc = s.pc := rfl

@[simp] theorem stack_elapse (ticks : Int) : (s.elapse ticks).stack = s.stack := rfl

theorem applyAlu_eq (s : State) (i : Instruction) (f : Alu) :
    ∃ registers, s.applyAlu i f = { s with registers } := by
  simp only [applyAlu]
  generalize f.apply _ _ = applied
  obtain ⟨result, flag⟩ := applied
  cases flag with
  | none => exact ⟨_, rfl⟩
  | some raised => exact ⟨_, rfl⟩

theorem control_call (runs : s.call i = .ok t) (operation : i.operation = .call) :
    Control s i t := by
  obtain ⟨stack, pushed, done⟩ := bind_eq_ok_iff.mp runs
  cases done
  exact .called operation pushed rfl

theorem control_returnToCaller (runs : s.returnToCaller = .ok t)
    (operation : i.operation = .returnToCaller) : Control s i t := by
  obtain ⟨⟨address, stack⟩, popped, done⟩ := bind_eq_ok_iff.mp runs
  cases done
  exact .returned operation popped

theorem control_jumpWithOffset (runs : s.jumpWithOffset i = .ok t)
    (operation : i.operation = .jumpWithOffset) : Control s i t := by
  rw [jumpWithOffset_eq] at runs
  split at runs
  case isTrue => cases runs
  case isFalse inside =>
    cases runs
    refine .jumped (.inr operation) rfl ?_
    have target : (UInt16.ofNat (s.offsetTarget i)).toNat ≤ s.offsetTarget i := Nat.mod_le _ _
    exact Nat.lt_of_le_of_lt target (Nat.lt_of_not_le inside)

theorem control_skipIf (condition : Bool)
    (runs : .ok (s.skipIf condition) = (.ok t : Except Fault State)) : Control s i t := by
  cases runs
  exact .passed condition (stack_skipIf condition) rfl

/-- Operations that check a range of memory go on to the next instruction. -/
theorem control_of_check {address length : Int} {next : State}
    (runs : (do Memory.check address length; return next) = (.ok t : Except Fault State))
    (stack : next.stack = s.stack) (pc : next.pc = s.pc) : Control s i t := by
  obtain ⟨-, -, done⟩ := bind_eq_ok_iff.mp runs
  cases done
  exact .passed false stack pc

/-- Nothing but a call grows the stack, nothing but a return shrinks it, and the
program counter never leaves the addresses that an instruction names. -/
theorem control_of_execute [Random.Generator] (runs : s.execute i key = .ok t) : Control s i t := by
  unfold execute at runs
  -- The operations that end in the same way stand together below.
  cases operation : i.operation <;> simp only [operation] at runs
  case call => exact control_call runs operation
  case returnToCaller => exact control_returnToCaller runs operation
  case jumpWithOffset => exact control_jumpWithOffset runs operation
  case jump =>
    cases runs
    exact .jumped (.inl operation) rfl i.target_lt
  case waitForKey =>
    cases runs
    cases key with
    | none => exact .rewound operation rfl rfl
    | some key => exact .passed false rfl rfl
  case alu f =>
    obtain ⟨registers, same⟩ := s.applyAlu_eq i f
    rw [same] at runs
    cases runs
    exact .passed false rfl rfl
  case draw => exact control_of_check runs rfl rfl
  case decimalDigits => exact control_of_check runs rfl rfl
  case storeRegisters => exact control_of_check runs rfl rfl
  case loadRegisters => exact control_of_check runs rfl rfl
  case skipIfEqualImmediate => exact control_skipIf _ runs
  case skipIfNotEqualImmediate => exact control_skipIf _ runs
  case skipIfEqualRegister => exact control_skipIf _ runs
  case skipIfNotEqualRegister => exact control_skipIf _ runs
  case skipIfKey => exact control_skipIf _ runs
  case skipIfNotKey => exact control_skipIf _ runs
  -- What is left writes registers, timers, the index or the screen.
  all_goals
    cases runs
    exact .passed false rfl rfl

end

end State

end Chip8
