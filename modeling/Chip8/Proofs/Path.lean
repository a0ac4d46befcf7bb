import Chip8.Machine
import Chip8.Proofs.Faults

/-! Cycles one after another. What a cycle comes to is decided by its sample and by
its instruction: a quit, a fault, or a state that the clock commits. A path strings
cycles together and leaves it open what the clock answers in each, so it covers
every course that the timers can take. -/

set_option autoImplicit false

namespace Chip8.Machine

open Fallible

theorem poll_snd {m : Machine} : m.poll.2 = { m with script := m.script.tail, polls := m.polls + 1 } := by
  unfold poll
  cases script : m.script with
  | nil => simp
  | cons sample rest => rfl

theorem state_poll {m : Machine} : m.poll.2.state = m.state := by rw [poll_snd]

theorem state_display {m : Machine} (i : Instruction) (after : State) :
    (m.display i after).state = m.state := by
  unfold display
  split <;> rfl

variable [Random.Generator]

section
variable {s t : State} {i : Instruction} {key : Option Key} {f : Fault}

theorem instruct_eq_ok_iff :
    instruct s key = .ok (i, t) ↔
      ∃ fetched, s.fetch = .ok (i, fetched) ∧ fetched.execute i key = .ok t := by
  simp only [instruct, bind_eq_ok_iff, pure_eq_ok, Except.ok.injEq, Prod.mk.injEq]
  constructor
  · rintro ⟨⟨_, fetched⟩, fetch, _, runs, rfl, rfl⟩
    exact ⟨fetched, fetch, runs⟩
  · rintro ⟨fetched, fetch, runs⟩
    exact ⟨(i, fetched), fetch, t, runs, rfl, rfl⟩

theorem instruct_eq_error_iff :
    instruct s key = .error f ↔
      s.fetch = .error f ∨ ∃ i fetched, s.fetch = .ok (i, fetched) ∧ fetched.fault? i = some f := by
  simp only [instruct, bind_eq_error_iff, State.execute_eq_error_iff, pure_eq_ok, reduceCtorEq,
    and_false, exists_false, or_false, Prod.exists]

/-- A key makes no difference to a fault. -/
theorem instruct_error_key (fails : instruct s key = .error f) (other : Option Key) :
    instruct s other = .error f :=
  instruct_eq_error_iff.mpr (instruct_eq_error_iff.mp fails)

end

/-- The next cycle is not a quit, and fetching or executing its instruction faults. -/
def Fails (m : Machine) (f : Fault) : Prop :=
  m.poll.1.quit = false ∧ instruct m.state m.poll.1.key = .error f

section
variable {m : Machine} {reading : Reading}

theorem cycleWith_quit (quit : m.poll.1.quit = true) :
    m.cycleWith reading = (m.poll.2.report [quitNotice], .ok .terminated) := by
  simp only [cycleWith, quit, if_true]

theorem cycleWith_fault {f : Fault} (fails : m.Fails f) :
    m.cycleWith reading = (m.poll.2, .error (.fault f)) := by
  simp only [cycleWith, fails.1, state_poll, fails.2, Bool.false_eq_true, if_false]

theorem cycleWith_commit {i : Instruction} {after : State} (goes : m.poll.1.quit = false)
    (runs : instruct m.state m.poll.1.key = .ok (i, after)) :
    m.cycleWith reading =
      ((m.poll.2.report i.notices).display i after).commit after reading := by
  simp only [cycleWith, goes, state_poll, runs, Bool.false_eq_true, if_false]

/-- The ways in which a cycle can end, with the machine and the outcome of each. What
becomes of a state that was reached is up to the clock. -/
inductive Ending (m : Machine) (reading : Reading) : Prop where
  | quit (asked : m.poll.1.quit = true)
      (ends : m.cycleWith reading = (m.poll.2.report [quitNotice], .ok .terminated))
  | fault (f : Fault) (fails : m.Fails f)
      (ends : m.cycleWith reading = (m.poll.2, .error (.fault f)))
  | reached (i : Instruction) (after : State) (goes : m.poll.1.quit = false)
      (runs : instruct m.state m.poll.1.key = .ok (i, after))
      (ends : m.cycleWith reading =
        ((m.poll.2.report i.notices).display i after).commit after reading)

theorem ending (m : Machine) (reading : Reading) : m.Ending reading := by
  by_cases asked : m.poll.1.quit = true
  · exact .quit asked (cycleWith_quit asked)
  · have goes : m.poll.1.quit = false := Bool.eq_false_iff.mpr asked
    cases runs : instruct m.state m.poll.1.key with
    | error f => exact .fault f ⟨goes, runs⟩ (cycleWith_fault ⟨goes, runs⟩)
    | ok reached => exact .reached reached.1 reached.2 goes runs (cycleWith_commit goes runs)

/-- A cycle that does not keep the machine running leaves its state alone; one that
does commits what its instruction led to. -/
theorem cycleWith_cases (m : Machine) (reading : Reading) :
    (m.cycleWith reading).2 ≠ .ok .running ∧ (m.cycleWith reading).1.state = m.state ∨
    (m.cycleWith reading).2 = .ok .running ∧
      ∃ i after ticks, instruct m.state m.poll.1.key = .ok (i, after) ∧
        (m.cycleWith reading).1.state = after.elapse ticks := by
  cases m.ending reading with
  | quit _ ends =>
    rw [ends]
    exact .inl ⟨by simp, state_poll⟩
  | fault f _ ends =>
    rw [ends]
    exact .inl ⟨by simp, state_poll⟩
  | reached i after _ runs ends =>
    rw [ends]
    obtain ⟨clock, ticks⟩ := reading
    -- The clock answers last: without ticks the state reached is not committed.
    cases ticks with
    | error e => exact .inl ⟨by simp [commit], (state_display i after).trans state_poll⟩
    | ok ticks => exact .inr ⟨rfl, i, after, ticks, runs, rfl⟩

end

/-- The next cycle fetches an instruction of this operation and goes through with it. -/
def Executes (m : Machine) (reading : Reading) (operation : Operation) : Prop :=
  (m.cycleWith reading).2 = .ok .running ∧
    ∃ i fetched, m.state.fetch = .ok (i, fetched) ∧ i.operation = operation

/-- An instruction without a fault is executed, unless the sample is a quit or the clock
cannot tell the ticks. -/
theorem executes_of_sound {m : Machine} {clock : Clock Number Float} {ticks : Int}
    {i : Instruction} {fetched : State} {operation : Operation} (goes : m.poll.1.quit = false)
    (fetch : m.state.fetch = .ok (i, fetched)) (encoded : i.operation = operation)
    (sound : fetched.fault? i = none) : m.Executes (clock, .ok ticks) operation := by
  obtain ⟨after, runs⟩ := State.execute_eq_ok_iff.mpr sound
  have instructed := instruct_eq_ok_iff.mpr ⟨fetched, fetch, runs⟩
  refine ⟨?_, i, fetched, fetch, encoded⟩
  rw [cycleWith_commit goes instructed]
  rfl

/-- A machine before its first cycle, with nothing in its script. -/
def fresh (state : State) : Machine :=
  ⟨state, ⟨Clock.defaultDelay, 0, 0⟩, [], 0, 0, 0, #[], #[]⟩

/-- A run of cycles, from one machine to another, through machines with a property. -/
inductive Path (p : Machine → Prop) (m : Machine) : Machine → Prop where
  | stay (here : p m) : Path p m m
  | cycle {n : Machine} (before : Path p m n) (reading : Reading)
      (here : p (n.cycleWith reading).1) : Path p m (n.cycleWith reading).1

abbrev Reachable (m n : Machine) : Prop := Path (fun _ => True) m n

namespace Path
variable {p : Machine → Prop} {m n : Machine}

theorem last (path : Path p m n) : p n := by
  cases path with
  | stay here => exact here
  | cycle _ _ here => exact here

/-- What holds at the start and passes from each machine of a path to the next
holds at its end. -/
theorem preserves (kept : Machine → Prop) (path : Path p m n) (start : kept m)
    (step : ∀ k reading, p k → p (k.cycleWith reading).1 → kept k →
      kept (k.cycleWith reading).1) : kept n := by
  induction path with
  | stay => exact start
  | cycle before reading here ih => exact step _ reading before.last here ih

theorem trans {k : Machine} (first : Path p m n) (second : Path p n k) : Path p m k := by
  induction second with
  | stay => exact first
  | cycle _ reading here ih => exact ih.cycle reading here

end Path

/-- The machine that a bounded run of the clock's own cycles ends in is reachable. -/
theorem reachable_cyclesUpTo (limit : Nat) (m : Machine) :
    Reachable m (cyclesUpTo limit m).1 := by
  induction limit generalizing m with
  | zero => exact .stay trivial
  | succ limit ih =>
    have first : Reachable m m.cycle.1 := (Path.stay trivial).cycle m.clock.advance trivial
    rw [cyclesUpTo]
    split
    case h_1 next running =>
      rw [running] at first
      exact first.trans (ih next)
    case h_2 => exact first

/-- A bounded run goes on from where a shorter one stopped. -/
theorem cyclesUpTo_add {start m : Machine} {k : Nat}
    (ran : cyclesUpTo k start = (m, .ok .running)) (rest : Nat) :
    cyclesUpTo (k + rest) start = cyclesUpTo rest m := by
  induction k generalizing start with
  | zero =>
    cases ran
    rw [Nat.zero_add]
  | succ k ih =>
    rw [Nat.add_right_comm, cyclesUpTo]
    rw [cyclesUpTo] at ran
    split at ran
    case h_1 next _ => exact ih ran
    case h_2 ended notRunning => exact absurd ran (notRunning m)

theorem state_run (m : Machine) (limit : Option Int) :
    (m.run limit).1.state =
      (cyclesUpTo ((limit.map Int.toNat).getD unlimited) m).1.state := by
  unfold run
  split
  case h_1 ended outcome reached => rw [reached]; rfl
  case h_2 ended error reached => rw [reached]

end Chip8.Machine
