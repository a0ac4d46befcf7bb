import Chip8.Proofs.Sprites
import Chip8.Proofs.Upkeep

/-! The targets of an instruction: the addresses, the pixels, the registers and the other
parts of the state that it may write. What is not a target of an instruction is the same
after it as before, whatever the operation, the dialect and the key. -/

set_option autoImplicit false

namespace Chip8

open Fallible

/-- The functions that give VF a value. -/
def Alu.setsFlag : Alu → Bool
  | set | or | and | xor => false
  | add | subtract | shiftRight | subtractFrom | shiftLeft => true

theorem Alu.isSome_apply (f : Alu) (vx vy : Int) : (f.apply vx vy).2.isSome = f.setsFlag := by
  cases f <;> rfl

namespace Operation

/-- The block transfers move the index in one dialect only. -/
def movesIndex (dialect : Dialect) : Operation → Bool
  | setIndex | addToIndex | fontCharacter => true
  | storeRegisters | loadRegisters => dialect == .classic
  | _ => false

/-- The operations that go elsewhere than to the next instruction. Waiting goes nowhere
once there is a key. -/
def movesCounter (key : Option Key) : Operation → Bool
  | returnToCaller | jump | call | jumpWithOffset | skipIfEqualImmediate
  | skipIfNotEqualImmediate | skipIfEqualRegister | skipIfNotEqualRegister | skipIfKey
  | skipIfNotKey => true
  | waitForKey => key.isNone
  | _ => false

end Operation

namespace Instruction

/-- The address is one of those that the instruction stores to. -/
def StoresTo (i : Instruction) (index address : Nat) : Prop :=
  match i.operation with
  | .decimalDigits => index ≤ address ∧ address < index + 3
  | .storeRegisters => index ≤ address ∧ address < index + i.x.val + 1
  | _ => False

def WritesRegister (i : Instruction) (key : Option Key) (r : Fin 16) : Prop :=
  match i.operation with
  | .setImmediate | .addImmediate | .random | .getDelayTimer => r = i.x
  | .waitForKey => key.isSome = true ∧ r = i.x
  | .alu f => r = i.x ∨ (f.setsFlag = true ∧ r = Registers.flag)
  | .draw => r = Registers.flag
  | .loadRegisters => r ≤ i.x
  | _ => False

end Instruction

namespace State

/-- Registers, index and program counter, as far as they are no targets. -/
structure Spares (s : State) (i : Instruction) (key : Option Key) (t : State) : Prop where
  registers : ∀ r, ¬ i.WritesRegister key r → t.registers.read r = s.registers.read r
  index : i.operation.movesIndex s.dialect = false → t.index = s.index
  pc : i.operation.movesCounter key = false → t.pc = s.pc

section
variable {s t : State} {i : Instruction} {key : Option Key}

theorem spares_same (registers : t.registers = s.registers) (index : t.index = s.index)
    (pc : t.pc = s.pc) : Spares s i key t :=
  ⟨fun _ _ => by rw [registers], fun _ => index, fun _ => pc⟩

theorem spares_moved (moves : i.operation.movesCounter key = true)
    (registers : t.registers = s.registers) (index : t.index = s.index) : Spares s i key t := by
  refine ⟨fun _ _ => by rw [registers], fun _ => index, ?_⟩
  intro stays
  rw [moves] at stays
  cases stays

theorem spares_pointed (moves : i.operation.movesIndex s.dialect = true)
    (registers : t.registers = s.registers) (pc : t.pc = s.pc) : Spares s i key t := by
  refine ⟨fun _ _ => by rw [registers], ?_, fun _ => pc⟩
  intro stays
  rw [moves] at stays
  cases stays

theorem spares_written {r : Fin 16} {value : UInt8} (target : i.WritesRegister key r)
    (registers : t.registers = s.registers.write r value) (index : t.index = s.index)
    (pc : t.pc = s.pc) : Spares s i key t := by
  refine ⟨?_, fun _ => index, fun _ => pc⟩
  intro q spared
  have other : q ≠ r := fun same => spared (same ▸ target)
  rw [registers, Registers.read_write_of_ne _ _ other]

/-- The flag is written last, over the result if both go into VF. -/
theorem registers_applyAlu {f : Alu} {operand : UInt8} {result : Int} {flag : Option Int}
    (shifted : operand = if f.isShift then s.shiftOperand i else s.registers.read i.x)
    (applied : f.apply operand.toNat (s.registers.read i.y).toNat = (result, flag)) :
    (s.applyAlu i f).registers =
      match flag with
      | none => s.registers.write i.x (UInt8.ofNat result.toNat)
      | some raised =>
          (s.registers.write i.x (UInt8.ofNat result.toNat)).write Registers.flag
            (UInt8.ofNat raised.toNat) := by
  simp only [applyAlu, ← shifted, applied]
  cases flag <;> rfl

theorem read_applyAlu {f : Alu} {r : Fin 16} (other : r ≠ i.x)
    (unflagged : ¬ (f.setsFlag = true ∧ r = Registers.flag)) :
    (s.applyAlu i f).registers.read r = s.registers.read r := by
  let operand := if f.isShift then s.shiftOperand i else s.registers.read i.x
  have flags := f.isSome_apply operand.toNat (s.registers.read i.y).toNat
  cases applied : f.apply operand.toNat (s.registers.read i.y).toNat with
  | mk result flag =>
  rw [applied] at flags
  rw [registers_applyAlu rfl applied]
  cases flag with
  | none => exact Registers.read_write_of_ne _ _ other
  | some raised =>
    have apart : r ≠ Registers.flag := fun same => unflagged ⟨flags.symm, same⟩
    rw [Registers.read_write_of_ne _ _ apart, Registers.read_write_of_ne _ _ other]

theorem spares_alu {f : Alu} (operation : i.operation = .alu f) :
    Spares s i key (s.applyAlu i f) := by
  obtain ⟨registers, same⟩ := s.applyAlu_eq i f
  refine ⟨?_, fun _ => by rw [same], fun _ => by rw [same]⟩
  intro r spared
  simp only [Instruction.WritesRegister, operation, not_or] at spared
  exact read_applyAlu spared.1 spared.2

theorem indexAfter_of_modern {count : Nat} (modern : (s.dialect == .classic) = false) :
    s.indexAfter count = s.index := by
  unfold indexAfter
  cases dialect : s.dialect with
  | classic => rw [dialect] at modern; cases modern
  | modern => rfl

theorem spares_stored (operation : i.operation = .storeRegisters)
    (runs : s.storeRegisters i = .ok t) : Spares s i key t := by
  obtain ⟨-, -, done⟩ := bind_eq_ok_iff.mp runs
  cases done
  refine ⟨fun _ _ => rfl, ?_, fun _ => rfl⟩
  intro stays
  rw [operation] at stays
  exact indexAfter_of_modern stays

theorem spares_loaded (operation : i.operation = .loadRegisters)
    (runs : s.loadRegisters i = .ok t) : Spares s i key t := by
  obtain ⟨-, -, done⟩ := bind_eq_ok_iff.mp runs
  cases done
  refine ⟨?_, ?_, fun _ => rfl⟩
  · intro r spared
    simp only [Instruction.WritesRegister, operation] at spared
    have beyond : ¬ r.val < i.x.val + 1 := fun within => spared (Nat.le_of_lt_succ within)
    rw [Registers.read_load, Memory.getElem?_slice, if_neg beyond]
    rfl
  · intro stays
    rw [operation] at stays
    exact indexAfter_of_modern stays

theorem spares_skipIf {condition : Bool} (moves : i.operation.movesCounter key = true)
    (runs : .ok (s.skipIf condition) = (.ok t : Except Fault State)) : Spares s i key t := by
  cases runs
  obtain ⟨pc, same⟩ := s.skipIf_eq condition
  exact spares_moved moves (by rw [same]) (by rw [same])

theorem spares_of_execute (runs : s.execute i key = .ok t) : Spares s i key t := by
  unfold execute at runs
  cases operation : i.operation <;> simp only [operation] at runs
  case setImmediate | addImmediate | getDelayTimer | random =>
    cases runs
    exact spares_written (by simp [Instruction.WritesRegister, operation]) rfl rfl rfl
  case draw =>
    obtain ⟨-, -, done⟩ := bind_eq_ok_iff.mp runs
    cases done
    exact spares_written (by simp [Instruction.WritesRegister, operation]) rfl rfl rfl
  case waitForKey =>
    cases runs
    cases key with
    | none => exact spares_moved (by rw [operation]; rfl) rfl rfl
    | some key =>
      exact spares_written (by simp [Instruction.WritesRegister, operation]) rfl rfl rfl
  case alu f =>
    cases runs
    exact spares_alu operation
  case storeRegisters => exact spares_stored operation runs
  case loadRegisters => exact spares_loaded operation runs
  case setIndex | addToIndex | fontCharacter =>
    cases runs
    exact spares_pointed (by rw [operation]; rfl) rfl rfl
  case jump =>
    cases runs
    exact spares_moved (by rw [operation]; rfl) rfl rfl
  case call | returnToCaller =>
    obtain ⟨_, -, done⟩ := bind_eq_ok_iff.mp runs
    cases done
    exact spares_moved (by rw [operation]; rfl) rfl rfl
  case jumpWithOffset =>
    rw [jumpWithOffset_eq] at runs
    split at runs
    case isTrue => cases runs
    case isFalse =>
      cases runs
      exact spares_moved (by rw [operation]; rfl) rfl rfl
  case skipIfEqualImmediate | skipIfNotEqualImmediate | skipIfEqualRegister
      | skipIfNotEqualRegister | skipIfKey | skipIfNotKey =>
    exact spares_skipIf (by rw [operation]; rfl) runs
  case decimalDigits =>
    obtain ⟨-, -, done⟩ := bind_eq_ok_iff.mp runs
    cases done
    exact spares_same rfl rfl rfl
  -- The screen, the timers and unsupported words are left.
  all_goals
    cases runs
    exact spares_same rfl rfl rfl

/-! ## All parts of the state -/

theorem length_stored_le {address : Nat} (spared : ¬ i.StoresTo s.index.toNat address)
    (above : s.index.toNat ≤ address) : (s.stored i).length ≤ address - s.index.toNat := by
  unfold Instruction.StoresTo at spared
  unfold stored
  cases operation : i.operation <;> simp only [operation] at spared ⊢
  case decimalDigits =>
    change 3 ≤ _
    omega
  case storeRegisters =>
    rw [Registers.length_through]
    omega
  all_goals exact Nat.zero_le _

theorem memory_of_leaves {address : Nat} (leaves : Leaves s i t)
    (spared : ¬ i.StoresTo s.index.toNat address) :
    t.memory.read address = s.memory.read address := by
  rw [leaves.memory]
  apply Memory.read_write_of_outside
  rcases Nat.lt_or_ge address s.index.toNat with before | above
  · exact .inl before
  · have short := length_stored_le spared above
    exact .inr (by omega)

theorem pixel_of_leaves {r : Fin 32} {c : Fin 64} (leaves : Leaves s i t)
    (drawing : i.operation = .draw) (spared : ¬ s.Covers i r c) :
    t.screen.pixel r c = s.screen.pixel r c := by
  have blank : s.spriteBit i r c = false := by simp [spriteBit, spared]
  rw [leaves.screen]
  simp only [screenAfter, drawing]
  rw [Screen.pixel_xor, pixel_spriteOf, blank, Bool.xor_false]

theorem stack_of_control (control : Control s i t)
    (quiet : ¬ (i.operation = .call ∨ i.operation = .returnToCaller)) : t.stack = s.stack := by
  cases control with
  | called operation => exact absurd (.inl operation) quiet
  | returned operation => exact absurd (.inr operation) quiet
  | jumped _ stack => exact stack
  | rewound _ stack => exact stack
  | passed _ stack => exact stack

end

/-- A state in which everything but the targets of an instruction is as in another. -/
structure ChangesTargets (s : State) (i : Instruction) (key : Option Key) (t : State) :
    Prop where
  memory : ∀ address, ¬ i.StoresTo s.index.toNat address →
    t.memory.read address = s.memory.read address
  screen : ¬ (i.operation = .draw ∨ i.operation = .clearScreen) → t.screen = s.screen
  pixels : i.operation = .draw → ∀ r c, ¬ s.Covers i r c →
    t.screen.pixel r c = s.screen.pixel r c
  stack : ¬ (i.operation = .call ∨ i.operation = .returnToCaller) → t.stack = s.stack
  random : i.operation ≠ .random → t.random = s.random
  delay : i.operation ≠ .setDelayTimer → t.delay = s.delay
  sound : i.operation ≠ .setSoundTimer → t.sound = s.sound
  index : i.operation.movesIndex s.dialect = false → t.index = s.index
  registers : ∀ r, ¬ i.WritesRegister key r → t.registers.read r = s.registers.read r
  pc : i.operation.movesCounter key = false → t.pc = s.pc
  unsupported : i.operation = .unsupported → t = s
  dialect : t.dialect = s.dialect

/-- The program counter of the first state is already past the instruction. -/
theorem changes_targets {s t : State} {i : Instruction} {key : Option Key}
    (runs : s.execute i key = .ok t) : ChangesTargets s i key t := by
  have leaves := leaves_of_execute runs
  have upkeep := upkeep_of_execute runs
  have spares := spares_of_execute runs
  constructor
  case memory => exact fun _ spared => memory_of_leaves leaves spared
  case screen => exact fun quiet => leaves.screen.trans (screenAfter_of_quiet quiet)
  case pixels => exact fun drawing _ _ spared => pixel_of_leaves leaves drawing spared
  case stack => exact stack_of_control (control_of_execute runs)
  case random => exact fun quiet => upkeep.random.trans (if_neg quiet)
  case delay => exact fun quiet => (upkeep.timer .delay).trans (if_neg quiet)
  case sound => exact fun quiet => (upkeep.timer .sound).trans (if_neg quiet)
  case index => exact spares.index
  case registers => exact spares.registers
  case pc => exact spares.pc
  case unsupported =>
    intro operation
    simp only [execute, operation] at runs
    cases runs
    rfl
  case dialect => exact upkeep.dialect

/-- Loads V0, V1 and V2 from the font in the modern dialect. -/
theorem changes_targets_loading :
    let s := initial ⟨0, 0⟩ .modern
    let load := Instruction.ofInt 0xF265
    ∃ t, s.execute load none = .ok t ∧ t.registers.read 2 = 0x90 ∧
      t.registers.read 3 = s.registers.read 3 ∧ t.index = s.index ∧ t.pc = s.pc ∧
      ∀ address, t.memory.read address = s.memory.read address := by
  intro s load
  have loads : (s.execute load none).toOption.map (fun t => t.registers.read 2) = some 0x90 := by
    decide +kernel
  obtain ⟨t, reached, loaded⟩ := Option.map_eq_some_iff.mp loads
  have runs : s.execute load none = .ok t := toOption_eq_some_iff.mp reached
  have changes := changes_targets runs
  have operation : load.operation = .loadRegisters := by decide
  refine ⟨t, runs, loaded, changes.registers 3 ?_, changes.index ?_, changes.pc ?_, ?_⟩
  · simp only [Instruction.WritesRegister, operation]
    decide
  · rw [operation]
    rfl
  · rw [operation]
    rfl
  · intro address
    refine changes.memory address ?_
    simp only [Instruction.StoresTo, operation, not_false_eq_true]

end State

end Chip8
