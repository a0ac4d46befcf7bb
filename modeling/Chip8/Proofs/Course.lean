import Chip8.Proofs.History

/-! Runs of cycles with a record of each. The clock's answers are part of the record
and are left open, so a course covers every way in which the timers can go, and the
commands of a machine are the course that its own clock gives it. -/

set_option autoImplicit false

namespace Chip8.Machine

variable [Random.Generator]

/-- A cycle as it happens: the machine that it starts on and what the clock answers. -/
structure Turn where
  start : Machine
  reading : Reading

namespace Turn

/-- The cycle that a machine's own clock gives it. -/
def own (m : Machine) : Turn := ⟨m, m.clock.advance⟩

def stop (t : Turn) : Machine := (t.start.cycleWith t.reading).1

/-- Whether the cycle goes through with an instruction and commits what it led to. -/
def commits (t : Turn) : Bool := (t.start.cycleWith t.reading).2.toOption == some .running

/-- The instruction that the cycle commits. -/
def instruction? (t : Turn) : Option Instruction :=
  if t.commits then t.start.state.fetch.toOption.map Prod.fst else none

/-- The ticks that the cycle commits. -/
def ticks? (t : Turn) : Option Int := if t.commits then t.reading.2.toOption else none

def runs (t : Turn) (operation : Operation) : Bool :=
  t.instruction?.any fun i => i.operation = operation

/-- How a cycle leaves the state. An instruction finds the program counter past itself. -/
inductive Result (t : Turn) : Prop where
  | kept (instruction : t.instruction? = none) (ticks : t.ticks? = none)
      (state : t.stop.state = t.start.state)
  | committed (i : Instruction) (after : State) (ticks : Int) (instruction : t.instruction? = some i)
      (told : t.ticks? = some ticks)
      (executes : State.execute { t.start.state with pc := t.start.state.pc + 2 } i
        t.start.poll.1.key = .ok after)
      (state : t.stop.state = after.elapse ticks)

theorem result_of_ended {t : Turn} (ended : t.commits = false)
    (state : t.stop.state = t.start.state) : t.Result :=
  .kept (if_neg (Bool.eq_false_iff.mp ended)) (if_neg (Bool.eq_false_iff.mp ended)) state

theorem result (t : Turn) : t.Result := by
  cases t.start.ending t.reading with
  | quit _ ends =>
    refine result_of_ended (by simp [commits, ends, Except.toOption]) ?_
    rw [stop, ends]
    exact state_poll
  | fault f _ ends =>
    refine result_of_ended (by simp [commits, ends, Except.toOption]) ?_
    rw [stop, ends]
    exact state_poll
  | reached i after goes runs ends =>
    obtain ⟨start, clock, ticks⟩ := t
    cases ticks with
    | error e =>
      refine result_of_ended (by simp [commits, ends, commit, Except.toOption]) ?_
      rw [stop, ends]
      exact (state_display i after).trans state_poll
    | ok ticks =>
      have commits : (Turn.mk start (clock, .ok ticks)).commits = true := by
        simp [commits, ends, commit, Except.toOption]
      obtain ⟨fetched, fetch, executes⟩ := instruct_eq_ok_iff.mp runs
      rw [(State.fetch_eq_ok fetch).2] at executes
      refine .committed i after ticks ?_ ?_ executes ?_
      · rw [instruction?, if_pos commits, fetch]
        rfl
      · rw [ticks?, if_pos commits]
        rfl
      · rw [stop, ends]
        rfl

theorem committed_of_instruction? {t : Turn} {i : Instruction} (commits : t.instruction? = some i) :
    ∃ after ticks, State.execute { t.start.state with pc := t.start.state.pc + 2 } i
      t.start.poll.1.key = .ok after ∧ t.stop.state = after.elapse ticks := by
  cases t.result with
  | kept instruction _ _ =>
    rw [instruction] at commits
    cases commits
  | committed j after ticks instruction _ executes state =>
    rw [commits] at instruction
    cases instruction
    exact ⟨after, ticks, executes, state⟩

theorem runs_iff {t : Turn} {operation : Operation} :
    t.runs operation = true ↔ ∃ i, t.instruction? = some i ∧ i.operation = operation := by
  simp [runs, Option.any_eq_true]

end Turn

/-- A run from one machine to another with its cycles, oldest first. Between them notices
may be reported, as at the end of each bounded run. -/
inductive Course (m : Machine) : List Turn → Machine → Prop where
  | start : Course m [] m
  | cycle {past : List Turn} {n : Machine} (before : Course m past n) (reading : Reading) :
      Course m (past ++ [⟨n, reading⟩]) (n.cycleWith reading).1
  | report {past : List Turn} {n : Machine} (before : Course m past n)
      (notices : List Log.Notice) : Course m past (n.report notices)

/-- The cycle after another, in which the clock tells the given ticks. -/
def Turn.next (t : Turn) (ticks : Int) : Turn := ⟨t.stop, (t.stop.clock, .ok ticks)⟩

theorem Course.next {m : Machine} {past : List Turn} {t : Turn} (before : Course m past t.stop)
    (ticks : Int) : Course m (past ++ [t.next ticks]) (t.next ticks).stop :=
  before.cycle (t.stop.clock, .ok ticks)

/-- A course comes apart at each of its cycles. -/
theorem Course.split {m n : Machine} {earlier later : List Turn} {turn : Turn}
    (course : Course m (earlier ++ turn :: later) n) :
    Course m earlier turn.start ∧ Course turn.stop later n := by
  generalize whole : earlier ++ turn :: later = past at course
  induction course generalizing later with
  | start => simp at whole
  | @cycle past n before reading ih =>
    obtain rfl | ⟨rest, last, rfl⟩ := List.eq_nil_or_concat later
    · obtain ⟨rfl, same⟩ := List.append_inj' whole rfl
      cases same
      exact ⟨before, .start⟩
    -- The cycle that was added last is not the one at which the course comes apart.
    · rw [List.concat_eq_append] at whole ⊢
      rw [← List.cons_append, ← List.append_assoc] at whole
      obtain ⟨earlier, same⟩ := List.append_inj' whole rfl
      cases same
      obtain ⟨first, second⟩ := ih earlier
      exact ⟨first, second.cycle reading⟩
  | report _ notices ih =>
    obtain ⟨first, second⟩ := ih whole
    exact ⟨first, second.report notices⟩

/-- Whatever commands a machine is given, it follows a course. -/
theorem course_performAll (m : Machine) (commands : List Command) :
    Course m ((m.history commands).map .own) (m.performAll commands) := by
  refine kept_performAll (fun past k => Course m (past.map .own) k) ?cycle ?report .start commands
  case cycle =>
    intro past k before
    rw [List.map_append]
    exact before.cycle k.clock.advance
  case report =>
    intro past k notices before
    exact before.report notices

end Chip8.Machine
