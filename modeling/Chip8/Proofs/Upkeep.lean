import Chip8.Proofs.Control

/-! What an executed instruction leaves of the timers, the random key and the dialect:
each timer has one operation that sets it, one operation draws from the key, and none
changes the dialect. -/

set_option autoImplicit false

namespace Chip8

open Fallible

inductive Timer where
  | delay
  | sound
  deriving DecidableEq, Repr

/-- The operation that sets a timer to VX. -/
def Timer.setting : Timer → Operation
  | delay => .setDelayTimer
  | sound => .setSoundTimer

/-- It sets no timer and draws nothing. -/
structure Instruction.Idle (i : Instruction) : Prop where
  timer : ∀ timer : Timer, i.operation ≠ timer.setting
  random : i.operation ≠ .random

namespace State

def timer (s : State) : Timer → UInt8
  | .delay => s.delay
  | .sound => s.sound

theorem timer_elapse {s : State} (ticks : Int) (timer : Timer) :
    ((s.elapse ticks).timer timer).toNat = (s.timer timer).toNat - ticks.toNat := by
  have delay := s.delay.toNat_lt
  have sound := s.sound.toNat_lt
  cases timer <;> simp only [State.timer, elapse, UInt8.toNat_ofNat'] <;> omega

theorem skipIf_eq (s : State) (condition : Bool) : ∃ pc, s.skipIf condition = { s with pc } := by
  cases condition
  · exact ⟨s.pc, rfl⟩
  · exact ⟨s.pc + 2, rfl⟩

def timerAfter (s : State) (timer : Timer) (i : Instruction) : UInt8 :=
  if i.operation = timer.setting then s.registers.read i.x else s.timer timer

section
variable [Random.Generator]

def randomAfter (s : State) (i : Instruction) : Random.Key :=
  if i.operation = .random then s.random.next else s.random

/-- The timers, the random key and the dialect of a state in terms of the one before it. -/
structure Upkeep (s : State) (i : Instruction) (t : State) : Prop where
  timer : ∀ timer, t.timer timer = s.timerAfter timer i
  random : t.random = s.randomAfter i
  dialect : t.dialect = s.dialect

variable {s t : State} {i : Instruction} {key : Option Key}

theorem upkeep_same (idle : i.Idle) (delay : t.delay = s.delay) (sound : t.sound = s.sound)
    (random : t.random = s.random) (dialect : t.dialect = s.dialect) : Upkeep s i t where
  timer timer := by
    rw [timerAfter, if_neg (idle.timer timer)]
    cases timer with
    | delay => exact delay
    | sound => exact sound
  random := by rw [randomAfter, if_neg idle.random, random]
  dialect := dialect

theorem upkeep_of_execute (runs : s.execute i key = .ok t) : Upkeep s i t := by
  unfold execute at runs
  cases operation : i.operation <;> simp only [operation] at runs
  case setDelayTimer | setSoundTimer | random =>
    cases runs
    refine ⟨?_, ?_, rfl⟩
    · intro timer
      cases timer <;> simp [timerAfter, operation, Timer.setting, State.timer, drawRandom, setRegister]
    · simp [randomAfter, operation, drawRandom]
  all_goals
    have idle : i.Idle := by
      constructor
      · intro timer
        cases timer <;> simp [operation, Timer.setting]
      · simp [operation]
  case call =>
    obtain ⟨stack, -, done⟩ := bind_eq_ok_iff.mp runs
    cases done
    exact upkeep_same idle rfl rfl rfl rfl
  case returnToCaller =>
    obtain ⟨popped, -, done⟩ := bind_eq_ok_iff.mp runs
    cases done
    exact upkeep_same idle rfl rfl rfl rfl
  case jumpWithOffset =>
    rw [jumpWithOffset_eq] at runs
    split at runs
    case isTrue => cases runs
    case isFalse =>
      cases runs
      exact upkeep_same idle rfl rfl rfl rfl
  case draw | decimalDigits | storeRegisters | loadRegisters =>
    obtain ⟨-, -, done⟩ := bind_eq_ok_iff.mp runs
    cases done
    exact upkeep_same idle rfl rfl rfl rfl
  case alu f =>
    obtain ⟨registers, same⟩ := s.applyAlu_eq i f
    rw [same] at runs
    cases runs
    exact upkeep_same idle rfl rfl rfl rfl
  case waitForKey =>
    cases runs
    cases key <;> exact upkeep_same idle rfl rfl rfl rfl
  case skipIfEqualImmediate | skipIfNotEqualImmediate | skipIfEqualRegister
      | skipIfNotEqualRegister | skipIfKey | skipIfNotKey =>
    cases runs
    obtain ⟨pc, same⟩ := s.skipIf_eq _
    rw [same]
    exact upkeep_same idle rfl rfl rfl rfl
  all_goals
    cases runs
    exact upkeep_same idle rfl rfl rfl rfl

end

end State

end Chip8
