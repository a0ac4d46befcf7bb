import Chip8.Proofs.Accounting
import Chip8.Proofs.Frames
import Chip8.Proofs.Surroundings

/-! Two machines side by side, the same but for what surrounds their programs. While the
first meets no instruction that looks at the difference, their cycles end in the same
way and leave them the same in all else. -/

set_option autoImplicit false

namespace Chip8.Machine

/-- What a machine has around its program: everything that can differ between two
machines without either of them noticing. -/
structure Surroundings where
  dialect : Dialect
  timers : Timer → UInt8
  clock : Clock Number Float
  script : List Sample

def surroundings (m : Machine) : Surroundings :=
  ⟨m.state.dialect, m.state.timer, m.clock, m.script⟩

/-- The surroundings once a sample is taken. -/
def Surroundings.polled (around : Surroundings) : Surroundings :=
  { around with script := around.script.tail }

/-- The machine in other surroundings. -/
def amid (m : Machine) (around : Surroundings) : Machine :=
  { m with
    state := m.state.amid around.dialect around.timers
    clock := around.clock
    script := around.script }

/-- The instruction that the next cycle fetches. A quit comes before any fetch. -/
def fetched? (m : Machine) : Option Instruction :=
  if m.poll.1.quit then none else m.state.fetch.toOption.map Prod.fst

/-- Whether the next cycle fetches one of some operations. -/
def fetches (m : Machine) (p : Operation → Bool) : Bool := m.fetched?.any fun i => p i.operation

/-- The next cycle finds the same in other surroundings wherever it looks. What the clocks
tell may differ, unless one of them fails. -/
structure Unseen (m : Machine) (around : Surroundings) : Prop where
  quit : (around.script.headD .idle).quit = m.poll.1.quit
  dialect : m.fetches Operation.readsDialect = true → around.dialect = m.state.dialect
  delay : m.fetches Operation.readsDelay = true → around.timers .delay = m.state.delay
  key : m.fetches Operation.readsKey = true → (around.script.headD .idle).key = m.poll.1.key
  clock : around.clock = m.clock ∨ m.Timed ∧ (m.amid around).Timed

/-- How surroundings go on while a machine beside them goes through its next cycle. -/
structure Follows (m : Machine) (around next : Surroundings) : Prop where
  dialect : next.dialect = around.dialect
  script : next.script = around.script.tail
  clock : around.clock = m.clock → next.clock = m.cycle.1.clock
  timer : around.clock = m.clock → ∀ timer, around.timers timer = m.state.timer timer →
    next.timers timer = m.cycle.1.state.timer timer

/-- The next cycle ends in other surroundings as it does in the machine's own, and leaves
the same machine there. -/
def Alike (m : Machine) (around : Surroundings) : Prop :=
  ∃ next, (m.amid around).cycle = (m.cycle.1.amid next, m.cycle.2) ∧ m.Follows around next

/-- Both clocks tell their ticks, or both fail for the same reason. -/
inductive TellAlike (first second : Reading) : Prop where
  | told (ticks others : Int) (firstTold : first = (first.1, .ok ticks))
      (secondTold : second = (second.1, .ok others))
  | failed (e : ArithmeticError) (firstFailed : first = (first.1, .error e))
      (secondFailed : second = (second.1, .error e))

theorem TellAlike.refl (reading : Reading) : TellAlike reading reading := by
  obtain ⟨clock, e | ticks⟩ := reading
  · exact .failed e rfl rfl
  · exact .told ticks ticks rfl rfl

section
variable {m : Machine} {around : Surroundings} {i : Instruction} {after : State}

/-- Nothing differs in the machine's own surroundings. -/
theorem unseen_surroundings (m : Machine) : m.Unseen m.surroundings where
  quit := congrArg Sample.quit (poll_fst m).symm
  dialect _ := rfl
  delay _ := rfl
  key _ := congrArg Sample.key (poll_fst m).symm
  clock := .inl rfl

theorem fetches_of_fetch {fetched : State} (goes : m.poll.1.quit = false)
    (fetch : m.state.fetch = .ok (i, fetched)) (p : Operation → Bool) :
    m.fetches p = p i.operation := by
  simp [fetches, fetched?, goes, fetch, Except.toOption]

theorem poll_amid :
    (m.amid around).poll = (around.script.headD .idle, m.poll.2.amid around.polled) := by
  refine Prod.ext (poll_fst _) ?_
  rw [poll_snd, poll_snd]
  rfl

theorem display_amid (dialect : Dialect) (timers : Timer → UInt8) :
    (m.amid around).display i (after.amid dialect timers) = (m.display i after).amid around := by
  unfold display
  split <;> rfl

theorem Unseen.state {fetched : State} (unseen : m.Unseen around) (goes : m.poll.1.quit = false)
    (fetch : m.state.fetch = .ok (i, fetched)) :
    fetched.Unseen i m.poll.1.key around.dialect around.timers (around.script.headD .idle).key := by
  have fetches := fetches_of_fetch goes fetch
  rw [(State.fetch_eq_ok fetch).2]
  constructor
  case dialect =>
    rw [← fetches Operation.readsDialect]
    exact unseen.dialect
  case delay =>
    rw [← fetches Operation.readsDelay]
    exact unseen.delay
  case key =>
    rw [← fetches Operation.readsKey]
    exact unseen.key

theorem instruct_amid (unseen : m.Unseen around) (goes : m.poll.1.quit = false) :
    instruct (m.amid around).state (around.script.headD .idle).key =
      (instruct m.state m.poll.1.key).map fun (i, after) =>
        (i, after.amid around.dialect ((m.amid around).state.timerAfter · i)) := by
  have fetches : (m.amid around).state.fetch = _ := State.fetch_amid
  unfold instruct
  rw [fetches]
  cases fetch : m.state.fetch with
  | error f => rfl
  | ok found =>
    obtain ⟨i, fetched⟩ := found
    simp only [Except.map, Fallible.ok_bind]
    rw [State.execute_amid (unseen.state goes fetch), (State.fetch_eq_ok fetch).2]
    cases State.execute _ i m.poll.1.key <;> rfl

/-- The clocks are asked when an instruction has gone through. -/
theorem Unseen.tellAlike {dialect : Dialect} {timers : Timer → UInt8} (unseen : m.Unseen around)
    {first second : Machine}
    (ends : m.cycle = first.commit after m.clock.advance)
    (again : (m.amid around).cycle =
      second.commit (after.amid dialect timers) around.clock.advance) :
    TellAlike m.clock.advance around.clock.advance := by
  obtain same | ⟨timed, alsoTimed⟩ := unseen.clock
  · rw [same]
    exact .refl _
  · have told {k : Machine} {t : State} {n : Machine} {reading : Reading} (timed : k.Timed)
        (ends : k.cycle = n.commit t reading) : ∃ ticks, reading = (reading.1, .ok ticks) := by
      obtain ⟨clock, e | ticks⟩ := reading
      · exact absurd (by rw [ends]; rfl) (timed e)
      · exact ⟨ticks, rfl⟩
    obtain ⟨ticks, firstTold⟩ := told timed ends
    obtain ⟨others, secondTold⟩ := told alsoTimed again
    exact .told ticks others firstTold secondTold

/-- A cycle that ends without a new state leaves the timers and the clock alone. -/
theorem cycle_amid_of_kept {ended : Machine} {result : Except Error Outcome}
    (ends : m.cycle = (ended, result))
    (again : (m.amid around).cycle = (ended.amid around.polled, result))
    (state : ended.state = m.state) (clock : ended.clock = m.clock) : m.Alike around := by
  refine ⟨around.polled, ?_, rfl, rfl, ?_, ?_⟩
  · rw [again, ends]
  · intro same
    rw [ends]
    exact same.trans clock.symm
  · intro _ timer same
    rw [ends]
    exact same.trans (congrArg (State.timer · timer) state.symm)

theorem cycle_amid_of_quit (unseen : m.Unseen around) (asked : m.poll.1.quit = true) :
    m.Alike around := by
  have alsoAsked : (m.amid around).poll.1.quit = true := by
    rw [poll_amid]
    exact unseen.quit.trans asked
  refine cycle_amid_of_kept (cycleWith_quit asked) ((cycleWith_quit alsoAsked).trans ?_) ?_ ?_
  · rw [poll_amid]
    rfl
  · exact state_poll
  · rw [poll_snd]
    rfl

theorem cycle_amid_of_fails {f : Fault} (unseen : m.Unseen around) (fails : m.Fails f) :
    m.Alike around := by
  have alsoFails : (m.amid around).Fails f := by
    constructor
    · rw [poll_amid]
      exact unseen.quit.trans fails.1
    · rw [poll_amid, instruct_amid unseen fails.1, fails.2]
      rfl
  refine cycle_amid_of_kept (cycleWith_fault fails) ((cycleWith_fault alsoFails).trans ?_) ?_ ?_
  · rw [poll_amid]
  · exact state_poll
  · rw [poll_snd]

/-- The timers that an instruction leaves, before any ticks. -/
theorem timer_of_instruct (runs : instruct m.state m.poll.1.key = .ok (i, after)) (timer : Timer) :
    after.timer timer = m.state.timerAfter timer i := by
  obtain ⟨fetched, fetch, executes⟩ := instruct_eq_ok_iff.mp runs
  rw [(State.upkeep_of_execute executes).timer timer, (State.fetch_eq_ok fetch).2]
  rfl

theorem timerAfter_amid_of_instruct (runs : instruct m.state m.poll.1.key = .ok (i, after)) {timer : Timer}
    (same : around.timers timer = m.state.timer timer) :
    (m.amid around).state.timerAfter timer i = after.timer timer := by
  have before : (m.amid around).state.timer timer = m.state.timer timer :=
    (State.timer_amid timer).trans same
  rw [timer_of_instruct runs]
  simp only [State.timerAfter, before]
  rfl

theorem cycle_amid_commit (unseen : m.Unseen around) (goes : m.poll.1.quit = false)
    (runs : instruct m.state m.poll.1.key = .ok (i, after)) :
    (m.amid around).cycle =
      (((m.poll.2.report i.notices).display i after).amid around.polled).commit
        (after.amid around.dialect ((m.amid around).state.timerAfter · i))
        around.clock.advance := by
  have alsoGoes : (m.amid around).poll.1.quit = false := by
    rw [poll_amid]
    exact unseen.quit.trans goes
  have alsoRuns : instruct (m.amid around).state (m.amid around).poll.1.key =
      .ok (i, after.amid around.dialect ((m.amid around).state.timerAfter · i)) := by
    rw [poll_amid, instruct_amid unseen goes, runs]
    rfl
  refine (cycleWith_commit alsoGoes alsoRuns).trans ?_
  rw [poll_amid, ← display_amid around.dialect ((m.amid around).state.timerAfter · i)]
  rfl

theorem cycle_amid_of_reached (unseen : m.Unseen around) (goes : m.poll.1.quit = false)
    (runs : instruct m.state m.poll.1.key = .ok (i, after)) : m.Alike around := by
  have ends : m.cycle = ((m.poll.2.report i.notices).display i after).commit after _ :=
    cycleWith_commit goes runs
  have again := cycle_amid_commit unseen goes runs
  cases unseen.tellAlike ends again with
  | failed e firstFailed secondFailed =>
    rw [firstFailed] at ends
    rw [secondFailed] at again
    refine ⟨{ around.polled with clock := around.clock.advance.1 }, ?_, rfl, rfl, ?_, ?_⟩
    · rw [again, ends]
      rfl
    · intro same
      rw [ends, same]
      rfl
    · intro _ timer same
      have kept : m.cycle.1.state = m.state := by
        rw [ends]
        exact (state_display i after).trans state_poll
      rw [kept]
      exact same
  | told ticks others firstTold secondTold =>
    rw [firstTold] at ends
    rw [secondTold] at again
    let reached := after.amid around.dialect ((m.amid around).state.timerAfter · i)
    refine ⟨{ around.polled with
      timers := (reached.elapse others).timer
      clock := around.clock.advance.1 }, ?_, rfl, rfl, ?_, ?_⟩
    · rw [again, ends]
      rfl
    · intro same
      rw [ends, same]
      rfl
    · intro sameClock timer same
      have sameTicks : others = ticks := by
        rw [sameClock, firstTold] at secondTold
        cases secondTold
        rfl
      have held : reached.timer timer = after.timer timer :=
        (State.timer_amid timer).trans (timerAfter_amid_of_instruct runs same)
      rw [ends, sameTicks]
      exact State.timer_elapse_congr held ticks

/-- The next cycles of a machine in two surroundings end in the same way, and afterwards
it is still only the surroundings in which they differ. -/
theorem cycle_amid (unseen : m.Unseen around) : m.Alike around := by
  cases m.ending m.clock.advance with
  | quit asked _ => exact cycle_amid_of_quit unseen asked
  | fault f fails _ => exact cycle_amid_of_fails unseen fails
  | reached i after goes runs _ => exact cycle_amid_of_reached unseen goes runs

end

/-- The machine after a number of cycles, however each of them ends. -/
def after (m : Machine) : Nat → Machine
  | 0 => m
  | n + 1 => (m.after n).cycle.1

section
variable {m n : Machine} {count : Nat}

theorem dialect_cycle (m : Machine) : m.cycle.1.state.dialect = m.state.dialect := by
  obtain ⟨-, kept⟩ | ⟨-, i, reached, ticks, runs, state⟩ := m.cycleWith_cases m.clock.advance
  · exact congrArg State.dialect kept
  · obtain ⟨fetched, fetch, executes⟩ := instruct_eq_ok_iff.mp runs
    calc m.cycle.1.state.dialect = (reached.elapse ticks).dialect := congrArg State.dialect state
      _ = reached.dialect := rfl
      _ = fetched.dialect := (State.upkeep_of_execute executes).dialect
      _ = m.state.dialect := by rw [(State.fetch_eq_ok fetch).2]

theorem script_after (m : Machine) (k : Nat) : (m.after k).script = m.script.drop k := by
  induction k with
  | zero => rfl
  | succ k ih => rw [after, (m.after k).counted.script, ih, List.tail_drop]

theorem poll_after (m : Machine) (k : Nat) : (m.after k).poll.1 = m.script.getD k .idle := by
  rw [poll_fst, script_after, headD_drop]

/-- Machines whose cycles end in the same way as long as they are related, and leave them
related, stay so for any number of cycles. The relation may depend on that number. -/
theorem lockstep (related : Nat → Machine → Machine → Prop) (start : related 0 m n)
    (cycle : ∀ k < count, related k (m.after k) (n.after k) →
      related (k + 1) (m.after k).cycle.1 (n.after k).cycle.1 ∧
        (n.after k).cycle.2 = (m.after k).cycle.2) :
    related count (m.after count) (n.after count) ∧
      ∀ k < count, (n.after k).cycle.2 = (m.after k).cycle.2 := by
  have along (k : Nat) : k ≤ count → related k (m.after k) (n.after k) := by
    induction k with
    | zero => exact fun _ => start
    | succ k ih => exact fun within => (cycle k within (ih (Nat.le_of_lt within))).1
  exact ⟨along count (Nat.le_refl count),
    fun k within => (cycle k within (along k (Nat.le_of_lt within))).2⟩

end

end Chip8.Machine
