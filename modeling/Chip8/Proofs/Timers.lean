import Chip8.Proofs.Course
import Chip8.Proofs.Upkeep

/-! The timers over whole courses. A timer counts down from the value that it was last
set to, by the ticks of every cycle since, the one that set it included. Stopping at
zero in each cycle comes to the same as stopping once at the end. -/

set_option autoImplicit false

namespace Chip8.Machine

namespace Turn

/-- What the cycle takes off a timer that is high enough. -/
def passed (t : Turn) : Int :=
  match t.ticks? with
  | none => 0
  | some ticks => max ticks 0

/-- What a timer holds when the ticks of the cycle begin to pass. -/
def held (t : Turn) (timer : Timer) : UInt8 :=
  match t.instruction? with
  | none => t.start.state.timer timer
  | some i => t.start.state.timerAfter timer i

section
variable {t : Turn} {timer : Timer} {i : Instruction}

theorem timer_stop (t : Turn) (timer : Timer) :
    ((t.stop.state.timer timer).toNat : Int) = max ((t.held timer).toNat - t.passed) 0 := by
  cases t.result with
  | kept instruction ticks state =>
    rw [state, held, passed, instruction, ticks]
    simp
  | committed i after ticks instruction told executes state =>
    have held : after.timer timer = t.start.state.timerAfter timer i :=
      (State.upkeep_of_execute executes).timer timer
    rw [state, State.timer_elapse, held, Turn.held, passed, instruction, told]
    simp only
    omega

theorem held_of_sets (commits : t.instruction? = some i) (sets : i.operation = timer.setting) :
    t.held timer = t.start.state.registers.read i.x := by
  rw [held, commits]
  exact if_pos sets

theorem held_of_quiet (quiet : t.runs timer.setting = false) :
    t.held timer = t.start.state.timer timer := by
  rw [held]
  cases commits : t.instruction? with
  | none => rfl
  | some i =>
    refine if_neg fun sets => ?_
    have runs : t.runs timer.setting = true := runs_iff.mpr ⟨i, commits, sets⟩
    rw [quiet] at runs
    cases runs

theorem read_of_getDelayTimer (commits : t.instruction? = some i)
    (operation : i.operation = .getDelayTimer) :
    t.stop.state.registers.read i.x = t.start.state.delay := by
  obtain ⟨after, ticks, executes, state⟩ := committed_of_instruction? commits
  simp only [State.execute, operation] at executes
  cases executes
  rw [state]
  exact Registers.read_write_self _ _ _

end

end Turn

/-- The ticks that some cycles committed, of which none are negative. -/
def timePassed : List Turn → Int
  | [] => 0
  | t :: turns => t.passed + timePassed turns

theorem timePassed_concat (turns : List Turn) (t : Turn) :
    timePassed (turns ++ [t]) = timePassed turns + t.passed := by
  induction turns with
  | nil => exact Int.add_comm _ _
  | cons first turns ih => rw [List.cons_append, timePassed, timePassed, ih, Int.add_assoc]

/-- A timer that stood at some value has counted down from it for some cycles. -/
def CountsDown (timer : Timer) (value : UInt8) (since : List Turn) (m : Machine) : Prop :=
  ((m.state.timer timer).toNat : Int) = max (value.toNat - timePassed since) 0

section
variable {m n : Machine} {timer : Timer} {value : UInt8} {since later : List Turn}

theorem countsDown_start (m : Machine) (timer : Timer) :
    CountsDown timer (m.state.timer timer) [] m := by
  simp [CountsDown, timePassed]

theorem countsDown_set {t : Turn} {i : Instruction} (commits : t.instruction? = some i)
    (sets : i.operation = timer.setting) :
    CountsDown timer (t.start.state.registers.read i.x) [t] t.stop := by
  rw [CountsDown, Turn.timer_stop, Turn.held_of_sets commits sets]
  simp [timePassed]

/-- One cycle. What is below zero before it stays at zero, since ticks only take away. -/
theorem CountsDown.cycle {t : Turn} (counts : CountsDown timer value since t.start)
    (quiet : t.runs timer.setting = false) :
    CountsDown timer value (since ++ [t]) t.stop := by
  have forward : 0 ≤ t.passed := by
    unfold Turn.passed
    split <;> omega
  unfold CountsDown at counts ⊢
  rw [Turn.timer_stop, Turn.held_of_quiet quiet, counts, timePassed_concat]
  omega

theorem CountsDown.course (counts : CountsDown timer value since m) (course : Course m later n)
    (quiet : ∀ t ∈ later, t.runs timer.setting = false) :
    CountsDown timer value (since ++ later) n := by
  -- The cycles that it counted down for already stay in front of those of the course.
  induction course with
  | start =>
    rw [List.append_nil]
    exact counts
  | @cycle past n _ reading ih =>
    have before := ih fun t member => quiet t (List.mem_append_left _ member)
    have last : (⟨n, reading⟩ : Turn).runs timer.setting = false := quiet _ (by simp)
    rw [← List.append_assoc]
    exact CountsDown.cycle before last
  | report _ _ ih => exact ih quiet

end

/-- Both timers, and what a program can read of them: the delay as it is before the
ticks of the cycle that reads it. -/
theorem timers_count_down {start m : Machine} {past : List Turn} (course : Course start past m) :
    (∀ timer : Timer, (∀ t ∈ past, t.runs timer.setting = false) →
      ((m.state.timer timer).toNat : Int) =
        max ((start.state.timer timer).toNat - timePassed past) 0) ∧
    (∀ (timer : Timer) (earlier later : List Turn) (turn : Turn) (i : Instruction),
      past = earlier ++ turn :: later → turn.instruction? = some i →
      i.operation = timer.setting → (∀ t ∈ later, t.runs timer.setting = false) →
      ((m.state.timer timer).toNat : Int) =
        max ((turn.start.state.registers.read i.x).toNat - timePassed (turn :: later)) 0) ∧
    (∀ turn ∈ past, ∀ i, turn.instruction? = some i → i.operation = .getDelayTimer →
      turn.stop.state.registers.read i.x = turn.start.state.delay) := by
  refine ⟨?_, ?_, ?_⟩
  · intro timer quiet
    exact (countsDown_start start timer).course course quiet
  · rintro timer earlier later turn i rfl commits sets quiet
    exact (countsDown_set commits sets).course course.split.2 quiet
  · intro turn _ i commits operation
    exact Turn.read_of_getDelayTimer commits operation

/-- Sets the delay timer to five, with the sound timer at two, and then reads it. -/
def setting : Turn :=
  let m := fresh { State.initial ⟨0, 0⟩ .classic with
    memory := Memory.zero.write Memory.programStart [0xF0, 0x15, 0xF1, 0x07]
    registers := Registers.zero.write Registers.first 5
    sound := 2 }
  ⟨m, (m.clock, .ok 2)⟩

/-- The clock goes backwards in the second of three cycles. -/
theorem timers_count_down_setting :
    let asking := setting.next (-1)
    let last := asking.next 1
    Course setting.start [setting, asking, last] last.stop ∧
    timePassed [setting, asking, last] = 3 ∧
    (last.stop.state.delay.toNat : Int) = max (5 - timePassed [setting, asking, last]) 0 ∧
    (last.stop.state.sound.toNat : Int) = max (2 - timePassed [setting, asking, last]) 0 ∧
    asking.stop.state.registers.read 1 = 3 := by
  intro asking last
  have course : Course setting.start [setting, asking, last] last.stop :=
    ((Course.start.cycle setting.reading).next (-1)).next 1
  obtain ⟨quiet, set, reads⟩ := timers_count_down course
  have sets : setting.instruction? = some (.ofBytes 0xF0 0x15) := by decide +kernel
  have asks : asking.instruction? = some (.ofBytes 0xF1 0x07) := by decide +kernel
  have value : (setting.start.state.registers.read (Instruction.ofBytes 0xF0 0x15).x).toNat = 5 := by
    decide +kernel
  have sound : (setting.start.state.timer .sound).toNat = 2 := by decide +kernel
  have delay := set .delay [] [asking, last] setting _ rfl sets (by decide +kernel) (by decide +kernel)
  have second := quiet .sound (by decide +kernel)
  rw [value] at delay
  rw [sound] at second
  refine ⟨course, by decide +kernel, delay, second, ?_⟩
  exact (reads asking (by simp) _ asks (by decide +kernel)).trans (by decide +kernel)

end Chip8.Machine
