import Chip8.Proofs.Path

/-! Cycles and runs asked of a machine one after another. A cycle is determined by
the machine that it starts on, so the machines on which cycles started are the whole
history: what each committed, drew or wrote, and how it ended, can be read off them. -/

set_option autoImplicit false

namespace Chip8.Machine

/-- A new machine with the usual clock. -/
def started (state : State) (script : List Sample) : Machine :=
  ⟨state, ⟨Clock.defaultDelay, 1.0 / 60.0, 0.0⟩, script, 0, 0, 0, #[], #[]⟩

theorem create_started (state : State) (script : List Sample) :
    create state Clock.defaultDelay Clock.defaultRate script = .ok (started state script) := rfl

variable [Random.Generator]

inductive Command where
  | cycle
  | run (limit : Option Int)
  deriving DecidableEq, Repr

def perform (m : Machine) : Command → Machine × Except Error Outcome
  | .cycle => m.cycle
  | .run limit => m.run limit

/-- A command that ends in an error or a quit leaves a machine that obeys the next one. -/
def performAll (m : Machine) : List Command → Machine
  | [] => m
  | command :: rest => (m.perform command).1.performAll rest

/-- Whether the next cycle commits an instruction and leaves the machine running. -/
def goesOn (m : Machine) : Bool := m.cycle.2.toOption == some .running

/-- The machines on which a bounded run starts a cycle, oldest first. -/
def visited : Nat → Machine → List Machine
  | 0, _ => []
  | limit + 1, m => m :: if m.goesOn then visited limit m.cycle.1 else []

def visitedBy (m : Machine) : Command → List Machine
  | .cycle => [m]
  | .run limit => visited ((limit.map Int.toNat).getD unlimited) m

def history (m : Machine) : List Command → List Machine
  | [] => []
  | command :: rest => m.visitedBy command ++ (m.perform command).1.history rest

/-- The instruction that the next cycle goes through with. There is none if the cycle
quits or fails. -/
def committed? (m : Machine) : Option Instruction :=
  if m.goesOn then m.state.fetch.toOption.map Prod.fst else none

section
variable {m : Machine} {i : Instruction}

theorem goesOn_iff : m.goesOn = true ↔ m.cycle.2 = .ok .running := by
  rw [goesOn, beq_iff_eq, Fallible.toOption_eq_some_iff]

/-- What a committed instruction made of the state, before the timers went on. -/
theorem instruct_of_committed? (commits : m.committed? = some i) :
    ∃ after ticks, instruct m.state m.poll.1.key = .ok (i, after) ∧
      m.cycle.1.state = after.elapse ticks := by
  unfold committed? at commits
  split at commits
  case isFalse => cases commits
  case isTrue goesOn =>
    obtain ⟨ended, -⟩ | ⟨-, j, after, ticks, runs, state⟩ := m.cycleWith_cases m.clock.advance
    · exact absurd (goesOn_iff.mp goesOn) ended
    · obtain ⟨fetched, fetch, -⟩ := instruct_eq_ok_iff.mp runs
      rw [fetch] at commits
      cases commits
      exact ⟨after, ticks, runs, state⟩

theorem state_of_committed?_none (idle : m.committed? = none) : m.cycle.1.state = m.state := by
  obtain ⟨-, state⟩ | ⟨running, i, after, ticks, runs, -⟩ := m.cycleWith_cases m.clock.advance
  · exact state
  · obtain ⟨fetched, fetch, -⟩ := instruct_eq_ok_iff.mp runs
    rw [committed?, if_pos (goesOn_iff.mpr running), fetch] at idle
    cases idle

end

theorem cyclesUpTo_succ (limit : Nat) (m : Machine) :
    cyclesUpTo (limit + 1) m = if m.goesOn then cyclesUpTo limit m.cycle.1 else m.cycle := by
  rw [cyclesUpTo]
  split
  case h_1 next running =>
    have goesOn : m.goesOn = true := goesOn_iff.mpr (by rw [running])
    rw [if_pos goesOn, running]
  case h_2 other =>
    have ended : ¬ m.goesOn = true := fun goesOn =>
      other m.cycle.1 (Prod.ext rfl (goesOn_iff.mp goesOn))
    rw [if_neg ended]

section
variable (kept : List Machine → Machine → Prop)

theorem kept_cyclesUpTo (cycle : ∀ past k, kept past k → kept (past ++ [k]) k.cycle.1)
    {past : List Machine} {m : Machine} (limit : Nat) (start : kept past m) :
    kept (past ++ visited limit m) (cyclesUpTo limit m).1 := by
  -- The past grows with each cycle, so the claim is about every past.
  induction limit generalizing past m with
  | zero =>
    rw [visited, List.append_nil]
    exact start
  | succ limit ih =>
    have next := cycle past m start
    rw [visited, cyclesUpTo_succ]
    by_cases goesOn : m.goesOn = true
    · rw [if_pos goesOn, if_pos goesOn, List.append_cons]
      exact ih next
    · rw [if_neg goesOn, if_neg goesOn]
      exact next

theorem kept_perform (cycle : ∀ past k, kept past k → kept (past ++ [k]) k.cycle.1)
    (report : ∀ past k notices, kept past k → kept past (k.report notices))
    {past : List Machine} {m : Machine} (command : Command) (start : kept past m) :
    kept (past ++ m.visitedBy command) (m.perform command).1 := by
  cases command with
  | cycle => exact cycle past m start
  | run limit =>
    have ran := kept_cyclesUpTo kept cycle ((limit.map Int.toNat).getD unlimited) start
    simp only [perform, run, visitedBy]
    split
    case h_1 ended outcome reached =>
      rw [reached] at ran
      exact report _ _ _ ran
    case h_2 ended error reached =>
      rw [reached] at ran
      exact ran

/-- What holds of a machine and an empty past, and goes on to hold when a cycle becomes
part of the past, holds of the history of all commands. -/
theorem kept_performAll (cycle : ∀ past k, kept past k → kept (past ++ [k]) k.cycle.1)
    (report : ∀ past k notices, kept past k → kept past (k.report notices))
    {m : Machine} (start : kept [] m) (commands : List Command) :
    kept (m.history commands) (m.performAll commands) := by
  suffices later : ∀ past, kept past m →
      kept (past ++ m.history commands) (m.performAll commands) from later [] start
  clear start
  induction commands generalizing m with
  | nil =>
    intro past start
    rw [history, List.append_nil]
    exact start
  | cons command rest ih =>
    intro past start
    rw [history, ← List.append_assoc]
    exact ih _ (kept_perform kept cycle report command start)

end

end Chip8.Machine
