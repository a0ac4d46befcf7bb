import Chip8.Proofs.Control

/-! What an executed instruction leaves on the screen and in memory, said once for
all operations: two of them change the screen, two of them write memory. -/

set_option autoImplicit false

namespace Chip8

open Fallible

namespace State

/-- The bytes that an instruction stores from the index on: the decimal digits of VX,
the registers up to VX, or nothing. -/
def stored (s : State) (i : Instruction) : List UInt8 :=
  match i.operation with
  | .decimalDigits =>
      let value := (s.registers.read i.x).toNat
      [UInt8.ofNat (value / 100), UInt8.ofNat (value / 10 % 10), UInt8.ofNat (value % 10)]
  | .storeRegisters => s.registers.through i.x
  | _ => []

/-- The sprite of a draw with the given rows, at the position in VX and VY. -/
def spriteOf (s : State) (i : Instruction) (rows : List UInt8) : Screen :=
  Screen.sprite rows (s.registers.read i.y).toNat (s.registers.read i.x).toNat

def screenAfter (s : State) (i : Instruction) : Screen :=
  match i.operation with
  | .clearScreen => .blank
  | .draw => s.screen.xor (s.spriteOf i (s.memory.slice s.index.toNat i.n.val))
  | _ => s.screen

/-- The screen and the memory of a state in terms of the one before it. -/
structure Leaves (s : State) (i : Instruction) (t : State) : Prop where
  screen : t.screen = s.screenAfter i
  memory : t.memory = s.memory.write s.index.toNat (s.stored i)

section
variable {s t : State} {i : Instruction} {key : Option Key}

theorem screen_skipIf (condition : Bool) : (s.skipIf condition).screen = s.screen := by
  cases condition <;> rfl

theorem memory_skipIf (condition : Bool) : (s.skipIf condition).memory = s.memory := by
  cases condition <;> rfl

/-- Only a draw and a clearing show anything. -/
theorem screenAfter_of_quiet (quiet : ¬ (i.operation = .draw ∨ i.operation = .clearScreen)) :
    s.screenAfter i = s.screen := by
  unfold screenAfter
  cases operation : i.operation <;> simp_all

/-- Bytes and natural numbers have the same decimal digits. -/
theorem decimalDigits_eq (value : UInt8) :
    decimalDigits value =
      [UInt8.ofNat (value.toNat / 100), UInt8.ofNat (value.toNat / 10 % 10),
        UInt8.ofNat (value.toNat % 10)] := by
  have bound := value.toNat_lt
  simp only [decimalDigits, List.cons.injEq, and_true, ← UInt8.toNat_inj, UInt8.toNat_ofNat']
  simp
  omega

theorem leaves_same (screen : t.screen = s.screen) (memory : t.memory = s.memory)
    (shows : s.screenAfter i = s.screen) (stores : s.stored i = []) : Leaves s i t := by
  refine ⟨screen.trans shows.symm, ?_⟩
  rw [memory, stores]
  rfl

theorem leaves_of_execute (runs : s.execute i key = .ok t) : Leaves s i t := by
  unfold execute at runs
  cases operation : i.operation <;> simp only [operation] at runs
  case clearScreen =>
    cases runs
    exact ⟨by simp only [screenAfter, operation], by simp only [stored, operation]; rfl⟩
  case draw =>
    obtain ⟨-, -, done⟩ := bind_eq_ok_iff.mp runs
    cases done
    exact ⟨by simp only [screenAfter, operation]; rfl, by simp only [stored, operation]; rfl⟩
  case decimalDigits =>
    obtain ⟨-, -, done⟩ := bind_eq_ok_iff.mp runs
    cases done
    exact ⟨by simp only [screenAfter, operation],
      by simp only [stored, operation, decimalDigits_eq]⟩
  case storeRegisters =>
    obtain ⟨-, -, done⟩ := bind_eq_ok_iff.mp runs
    cases done
    exact ⟨by simp only [screenAfter, operation], by simp only [stored, operation]⟩
  -- No other operation shows or stores anything.
  all_goals
    have shows : s.screenAfter i = s.screen := by simp only [screenAfter, operation]
    have stores : s.stored i = [] := by simp only [stored, operation]
  case call =>
    obtain ⟨stack, -, done⟩ := bind_eq_ok_iff.mp runs
    cases done
    exact leaves_same rfl rfl shows stores
  case returnToCaller =>
    obtain ⟨popped, -, done⟩ := bind_eq_ok_iff.mp runs
    cases done
    exact leaves_same rfl rfl shows stores
  case jumpWithOffset =>
    rw [jumpWithOffset_eq] at runs
    split at runs
    case isTrue => cases runs
    case isFalse =>
      cases runs
      exact leaves_same rfl rfl shows stores
  case loadRegisters =>
    obtain ⟨-, -, done⟩ := bind_eq_ok_iff.mp runs
    cases done
    exact leaves_same rfl rfl shows stores
  case alu f =>
    obtain ⟨registers, same⟩ := s.applyAlu_eq i f
    rw [same] at runs
    cases runs
    exact leaves_same rfl rfl shows stores
  case waitForKey =>
    cases runs
    cases key <;> exact leaves_same rfl rfl shows stores
  case skipIfEqualImmediate | skipIfNotEqualImmediate | skipIfEqualRegister
      | skipIfNotEqualRegister | skipIfKey | skipIfNotKey =>
    cases runs
    exact leaves_same (screen_skipIf _) (memory_skipIf _) shows stores
  all_goals
    cases runs
    exact leaves_same rfl rfl shows stores

end

end State

end Chip8
