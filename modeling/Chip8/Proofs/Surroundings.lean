import Chip8.Proofs.Upkeep

/-! What an instruction sees of its surroundings. The dialect, the delay timer and the
sampled key each matter to a few operations, the sound timer to none, and every other
instruction does the same whatever they are. -/

set_option autoImplicit false

namespace Chip8

open Fallible

namespace Operation

/-- The operations on which the dialects differ. -/
def readsDialect : Operation → Bool
  | jumpWithOffset | alu .shiftRight | alu .shiftLeft | storeRegisters | loadRegisters => true
  | _ => false

def readsDelay : Operation → Bool
  | getDelayTimer => true
  | _ => false

def readsKey : Operation → Bool
  | skipIfKey | skipIfNotKey | waitForKey => true
  | _ => false

theorem readsDialect_of_isShift {f : Alu} (shifts : f.isShift = true) :
    (alu f).readsDialect = true := by
  revert shifts
  cases f <;> decide

end Operation

namespace State

/-- The state in another dialect and with other timers. -/
def amid (s : State) (dialect : Dialect) (timers : Timer → UInt8) : State :=
  { s with dialect, delay := timers .delay, sound := timers .sound }

/-- Wherever an instruction looks at its surroundings, it finds the same in others. -/
structure Unseen (s : State) (i : Instruction) (key : Option Key) (dialect : Dialect)
    (timers : Timer → UInt8) (other : Option Key) : Prop where
  dialect : i.operation.readsDialect = true → dialect = s.dialect
  delay : i.operation.readsDelay = true → timers .delay = s.delay
  key : i.operation.readsKey = true → other = key

section
variable {s : State} {i : Instruction} {key other : Option Key} {dialect : Dialect}
  {timers : Timer → UInt8}

@[simp] theorem registers_amid : (s.amid dialect timers).registers = s.registers := rfl

theorem timer_amid (timer : Timer) : (s.amid dialect timers).timer timer = timers timer := by
  cases timer <;> rfl

theorem timer_elapse_congr {t : State} {timer : Timer} (same : s.timer timer = t.timer timer)
    (ticks : Int) : (s.elapse ticks).timer timer = (t.elapse ticks).timer timer := by
  rw [← UInt8.toNat_inj, timer_elapse, timer_elapse, same]

theorem timerAfter_amid (quiet : ∀ timer : Timer, i.operation ≠ timer.setting) :
    ((s.amid dialect timers).timerAfter · i) = timers := by
  funext timer
  rw [timerAfter, if_neg (quiet timer), timer_amid]

theorem skipIf_amid (condition : Bool) :
    (s.amid dialect timers).skipIf condition = (s.skipIf condition).amid dialect timers := by
  cases condition <;> rfl

theorem waitForKey_amid (key : Option Key) :
    (s.amid dialect timers).waitForKey i key = (s.waitForKey i key).amid dialect timers := by
  cases key <;> rfl

theorem applyAlu_amid {f : Alu}
    (same : (Operation.alu f).readsDialect = true → dialect = s.dialect) :
    (s.amid dialect timers).applyAlu i f = (s.applyAlu i f).amid dialect timers := by
  have operand : (if f.isShift then (s.amid dialect timers).shiftOperand i
        else (s.amid dialect timers).registers.read i.x) =
      if f.isShift then s.shiftOperand i else s.registers.read i.x := by
    split
    case isTrue shifts =>
      rw [same (Operation.readsDialect_of_isShift shifts)]
      rfl
    case isFalse => rfl
  simp only [applyAlu, operand]
  rw [registers_amid]
  cases f.apply _ (s.registers.read i.y).toNat with
  | mk result flag => cases flag <;> rfl

theorem call_amid :
    (s.amid dialect timers).call i = (s.call i).map fun t => t.amid dialect timers := by
  unfold call
  rw [map_bind_pure]
  rfl

theorem returnToCaller_amid :
    (s.amid dialect timers).returnToCaller =
      s.returnToCaller.map fun t => t.amid dialect timers := by
  unfold returnToCaller
  change (s.stack.pop >>= _) = _
  cases s.stack.pop <;> rfl

theorem jumpWithOffset_amid :
    (s.amid s.dialect timers).jumpWithOffset i =
      (s.jumpWithOffset i).map fun t => t.amid s.dialect timers := by
  have target : (s.amid s.dialect timers).offsetTarget i = s.offsetTarget i := rfl
  rw [jumpWithOffset_eq, jumpWithOffset_eq, target]
  split <;> rfl

/-- Operations that check a range of memory and read nothing of their surroundings. -/
theorem map_of_check {address length : Int} {next : State} {f : State → State}
    {first second : Except Fault State}
    (checks : first = do Memory.check address length; return next)
    (again : second = do Memory.check address length; return f next) : second = first.map f := by
  rw [checks, again, map_bind_pure]

/-- Other surroundings than those that an instruction looks at only go along: they decide
neither what it does nor whether it faults. -/
theorem execute_amid (unseen : Unseen s i key dialect timers other) :
    (s.amid dialect timers).execute i other =
      (s.execute i key).map fun t => t.amid dialect ((s.amid dialect timers).timerAfter · i) := by
  obtain ⟨sameDialect, sameDelay, sameKey⟩ := unseen
  unfold execute
  cases operation : i.operation <;> rw [operation] at sameDialect sameDelay sameKey
  case setDelayTimer | setSoundTimer =>
    simp [timerAfter, operation, Timer.setting, Except.map, amid, State.timer]
  -- No other operation sets a timer.
  all_goals
    rw [timerAfter_amid fun timer => by cases timer <;> simp [operation, Timer.setting]]
    simp only [registers_amid]
  -- The operations that look at something.
  case jumpWithOffset =>
    cases sameDialect rfl
    exact jumpWithOffset_amid
  case storeRegisters =>
    cases sameDialect rfl
    exact map_of_check rfl rfl
  case loadRegisters =>
    cases sameDialect rfl
    exact map_of_check rfl rfl
  case alu f => exact congrArg Except.ok (applyAlu_amid sameDialect)
  case getDelayTimer =>
    have delay : (s.amid dialect timers).delay = s.delay := sameDelay rfl
    rw [delay]
    rfl
  case waitForKey =>
    cases sameKey rfl
    exact congrArg Except.ok (waitForKey_amid _)
  case skipIfKey | skipIfNotKey =>
    cases sameKey rfl
    exact congrArg Except.ok (skipIf_amid _)
  -- Those that look at nothing.
  case call => exact call_amid
  case returnToCaller => exact returnToCaller_amid
  case draw => exact map_of_check rfl rfl
  case decimalDigits => exact map_of_check rfl rfl
  case skipIfEqualImmediate | skipIfNotEqualImmediate | skipIfEqualRegister
      | skipIfNotEqualRegister =>
    exact congrArg Except.ok (skipIf_amid _)
  all_goals rfl

theorem fetch_amid :
    (s.amid dialect timers).fetch =
      s.fetch.map fun (i, fetched) => (i, fetched.amid dialect timers) := by
  unfold fetch
  rw [map_bind_pure]
  rfl

end

end State

end Chip8
