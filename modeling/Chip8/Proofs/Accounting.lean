import Chip8.Proofs.FatalErrors
import Chip8.Proofs.History

/-! The counts of a machine balance. Every cycle polls once and then goes on, quits or
raises an error, and only one that goes on is counted as a cycle and sleeps. What was
polled is the script in its order, with idle samples after its end. -/

set_option autoImplicit false

namespace Chip8

/-- What a script yields when it is polled so many times. -/
def Sample.polled (script : List Sample) (count : Nat) : List Sample :=
  (List.range count).map fun k => script.getD k .idle

theorem Sample.polled_succ (script : List Sample) (count : Nat) :
    polled script (count + 1) = polled script count ++ [script.getD count .idle] := by
  rw [polled, List.range_succ, List.map_append]
  rfl

namespace Machine

/-- Whether the next sample is a quit. -/
def quits (m : Machine) : Bool := m.poll.1.quit

/-- Whether the next cycle ends in an error. -/
def raises (m : Machine) : Bool := m.cycle.2.toOption.isNone

theorem countP_concat (p : Machine → Bool) (past : List Machine) (m : Machine) :
    (past ++ [m]).countP p = past.countP p + (p m).toNat := by
  rw [List.countP_append, List.countP_singleton]
  cases p m <;> rfl

/-- What the next cycle adds to the counts. -/
structure Counted (m : Machine) : Prop where
  polls : m.cycle.1.polls = m.polls + 1
  script : m.cycle.1.script = m.script.tail
  cycles : m.cycle.1.cycles = m.cycles + m.goesOn.toNat
  sleeps : m.cycle.1.sleeps = m.sleeps + m.goesOn.toNat
  ends : m.goesOn.toNat + m.quits.toNat + m.raises.toNat = 1

theorem display_eq (m : Machine) (i : Instruction) (after : State) :
    ∃ frames, m.display i after = { m with frames } := by
  unfold display
  split
  · exact ⟨_, rfl⟩
  · exact ⟨_, rfl⟩

theorem counted (m : Machine) : m.Counted := by
  cases m.ending m.clock.advance with
  | quit asked ends =>
    rw [← cycle, poll_snd] at ends
    constructor <;> simp [goesOn, quits, raises, ends, asked, report, Except.toOption]
  | fault f fails ends =>
    rw [← cycle, poll_snd] at ends
    constructor <;> simp [goesOn, quits, raises, ends, fails.1, Except.toOption]
  | reached i after goes _ ends =>
    obtain ⟨frames, shown⟩ := (m.poll.2.report i.notices).display_eq i after
    cases answer : m.clock.advance with
    | mk clock ticks =>
    rw [← cycle, shown, poll_snd, answer] at ends
    cases ticks with
    -- The clock's error comes after the poll and before the count.
    | error e =>
      constructor <;> simp [goesOn, quits, raises, ends, goes, commit, report, Except.toOption]
    | ok ticks =>
      constructor <;> simp [goesOn, quits, raises, ends, goes, commit, report, Except.toOption]

/-- The samples that some cycles polled. -/
def samples (past : List Machine) : List Sample := past.map fun k => k.poll.1

theorem length_samples (past : List Machine) : (samples past).length = past.length :=
  List.length_map _

/-- The counts of a machine in terms of the cycles since an earlier one. Each of these
went on, quit or raised an error, and no two of that. -/
structure Accounts (start : Machine) (past : List Machine) (m : Machine) : Prop where
  polls : m.polls = start.polls + past.length
  script : m.script = start.script.drop past.length
  samples : samples past = Sample.polled start.script past.length
  cycles : m.cycles = start.cycles + past.countP goesOn
  sleeps : m.sleeps = start.sleeps + past.countP goesOn
  ends : past.length = past.countP goesOn + past.countP quits + past.countP raises

theorem poll_fst (m : Machine) : m.poll.1 = m.script.headD .idle := by
  unfold poll
  cases m.script <;> rfl

theorem headD_drop (script : List Sample) (k : Nat) :
    (script.drop k).headD .idle = script.getD k .idle := by
  rw [List.headD_eq_head?_getD, List.head?_drop, List.getD_eq_getElem?_getD]

section
variable {start m : Machine} {past : List Machine}

theorem accounts_start (start : Machine) : Accounts start [] start := ⟨rfl, rfl, rfl, rfl, rfl, rfl⟩

theorem Accounts.cycle (accounts : Accounts start past m) :
    Accounts start (past ++ [m]) m.cycle.1 := by
  have counted := m.counted
  have length : (past ++ [m]).length = past.length + 1 := List.length_append
  constructor
  case polls => rw [counted.polls, accounts.polls, length, Nat.add_assoc]
  case script => rw [counted.script, accounts.script, length, List.tail_drop]
  case samples =>
    have sample : m.poll.1 = start.script.getD past.length .idle := by
      rw [poll_fst, accounts.script, headD_drop]
    rw [length, Sample.polled_succ, ← accounts.samples, ← sample]
    exact List.map_append
  case cycles => rw [counted.cycles, accounts.cycles, countP_concat, Nat.add_assoc]
  case sleeps => rw [counted.sleeps, accounts.sleeps, countP_concat, Nat.add_assoc]
  case ends =>
    have before := accounts.ends
    have once := counted.ends
    rw [length, countP_concat, countP_concat, countP_concat]
    omega

theorem Accounts.report (accounts : Accounts start past m) (notices : List Log.Notice) :
    Accounts start past (m.report notices) :=
  ⟨accounts.polls, accounts.script, accounts.samples, accounts.cycles, accounts.sleeps,
    accounts.ends⟩

theorem accounts_performAll (start : Machine) (commands : List Command) :
    Accounts start (start.history commands) (start.performAll commands) :=
  kept_performAll (Accounts start) (fun _ _ => .cycle) (fun _ _ notices => (.report · notices))
    (accounts_start start) commands

theorem accounts_run (m : Machine) (limit : Option Int) :
    Accounts m (m.visitedBy (.run limit)) (m.run limit).1 :=
  kept_perform (Accounts m) (fun _ _ => .cycle) (fun _ _ notices => (.report · notices))
    (.run limit) (accounts_start m)

theorem Accounts.quits (accounts : Accounts start past m) :
    past.countP Machine.quits = (Sample.polled start.script past.length).countP Sample.quit := by
  rw [← accounts.samples, Machine.samples, List.countP_map]
  rfl

end

/-- A bounded run goes through with every cycle that its limit allows, or with all of its
cycles but the last one, whose outcome is the run's. -/
theorem cyclesUpTo_ends (limit : Nat) (m : Machine) :
    ((cyclesUpTo limit m).2 = .ok .running ∧ (visited limit m).length = limit ∧
      ∀ k ∈ visited limit m, k.goesOn = true) ∨
    ∃ earlier last, visited limit m = earlier ++ [last] ∧ (∀ k ∈ earlier, k.goesOn = true) ∧
      last.goesOn = false ∧ (cyclesUpTo limit m).2 = last.cycle.2 := by
  induction limit generalizing m with
  | zero => exact .inl ⟨rfl, rfl, by simp [visited]⟩
  | succ limit ih =>
    rw [visited, cyclesUpTo_succ]
    by_cases goesOn : m.goesOn = true
    -- The first cycle stands in front of whatever the rest of the run visits.
    · rw [if_pos goesOn, if_pos goesOn]
      obtain ⟨outcome, length, all⟩ | ⟨earlier, last, visits, all, stops, outcome⟩ := ih m.cycle.1
      · exact .inl ⟨outcome, congrArg (· + 1) length, List.forall_mem_cons.mpr ⟨goesOn, all⟩⟩
      · refine .inr ⟨m :: earlier, last, ?_, List.forall_mem_cons.mpr ⟨goesOn, all⟩, stops, outcome⟩
        rw [visits, List.cons_append]
    · rw [if_neg goesOn, if_neg goesOn]
      exact .inr ⟨[], m, rfl, by simp, Bool.eq_false_iff.mpr goesOn, rfl⟩

theorem outcome_run (m : Machine) (limit : Option Int) :
    (m.run limit).2 = (cyclesUpTo ((limit.map Int.toNat).getD unlimited) m).2 := by
  unfold run
  split
  case h_1 ended outcome reached => rw [reached]
  case h_2 ended error reached => rw [reached]

theorem cycle_terminated_iff (m : Machine) : m.cycle.2 = .ok .terminated ↔ m.quits = true := by
  constructor
  · intro ended
    have ends := m.counted.ends
    simp only [goesOn, raises, ended, Except.toOption] at ends
    cases asked : m.quits with
    | true => rfl
    | false => rw [asked] at ends; cases ends
  · intro asked
    rw [cycle, cycleWith_quit asked]

theorem quits_of_goesOn {m : Machine} (goesOn : m.goesOn = true) : m.quits = false := by
  have ends := m.counted.ends
  rw [goesOn] at ends
  cases asked : m.quits with
  | false => rfl
  | true =>
    rw [asked, Bool.toNat_true] at ends
    omega

/-- What a run did with the samples that it polled. A negative limit allows no cycle. -/
structure RunAccount (m : Machine) (limit : Int) (polled : List Sample) : Prop where
  scripted : polled = Sample.polled m.script polled.length
  polls : (m.run (some limit)).1.polls = m.polls + polled.length
  terminated_iff : (m.run (some limit)).2 = .ok .terminated ↔ ∃ s ∈ polled, s.quit = true
  terminated : (m.run (some limit)).2 = .ok .terminated →
    ∃ earlier last, polled = earlier ++ [last] ∧ last.quit = true ∧
      (∀ s ∈ earlier, s.quit = false) ∧
      (m.run (some limit)).1.cycles = m.cycles + earlier.length
  running : (m.run (some limit)).2 = .ok .running →
    ((m.run (some limit)).1.cycles : Int) = m.cycles + max limit 0 ∧
      (polled.length : Int) = max limit 0

theorem quit_of_mem_samples {past : List Machine} (all : ∀ k ∈ past, k.goesOn = true) :
    ∀ s ∈ samples past, s.quit = false :=
  List.forall_mem_map.mpr fun k member => quits_of_goesOn (all k member)

section
variable {m : Machine} {limit : Int}

theorem scripted_visited (limit : Int) (m : Machine) :
    samples (visited limit.toNat m) =
      Sample.polled m.script (samples (visited limit.toNat m)).length := by
  have accounts := accounts_run m (some limit)
  rw [length_samples]
  exact accounts.samples

theorem polls_run (limit : Int) (m : Machine) :
    (m.run (some limit)).1.polls = m.polls + (samples (visited limit.toNat m)).length := by
  have accounts := accounts_run m (some limit)
  rw [length_samples]
  exact accounts.polls

theorem cycles_run (limit : Int) (m : Machine) :
    (m.run (some limit)).1.cycles = m.cycles + (visited limit.toNat m).countP goesOn :=
  (accounts_run m (some limit)).cycles

theorem runAccount_of_full (outcome : (m.run (some limit)).2 = .ok .running)
    (full : (visited limit.toNat m).length = limit.toNat)
    (all : ∀ k ∈ visited limit.toNat m, k.goesOn = true) :
    RunAccount m limit (samples (visited limit.toNat m)) := by
  have quiet := quit_of_mem_samples all
  refine ⟨scripted_visited limit m, polls_run limit m, ?_, ?_, ?_⟩
  · rw [outcome]
    constructor
    · intro impossible
      cases impossible
    · rintro ⟨s, member, asked⟩
      rw [quiet s member] at asked
      cases asked
  · rw [outcome]
    intro impossible
    cases impossible
  · intro _
    rw [cycles_run, List.countP_eq_length.mpr all, length_samples, full]
    omega

theorem runAccount_of_stopped {earlier : List Machine} {last : Machine}
    (outcome : (m.run (some limit)).2 = last.cycle.2)
    (visits : visited limit.toNat m = earlier ++ [last])
    (all : ∀ k ∈ earlier, k.goesOn = true) (stops : last.goesOn = false) :
    RunAccount m limit (samples (visited limit.toNat m)) := by
  have quiet := quit_of_mem_samples all
  have polled : samples (visited limit.toNat m) = samples earlier ++ [last.poll.1] := by
    rw [visits]
    exact List.map_append
  refine ⟨scripted_visited limit m, polls_run limit m, ?_, ?_, ?_⟩
  -- The samples before the last led to whole cycles, so only the last can be a quit.
  · rw [outcome, cycle_terminated_iff, polled]
    constructor
    · intro asked
      exact ⟨last.poll.1, List.mem_append_right _ (List.mem_singleton_self _), asked⟩
    · rintro ⟨s, member, asked⟩
      obtain before | only := List.mem_append.mp member
      · rw [quiet s before] at asked
        cases asked
      · rw [List.mem_singleton.mp only] at asked
        exact asked
  · intro terminated
    rw [outcome, cycle_terminated_iff] at terminated
    refine ⟨samples earlier, last.poll.1, polled, terminated, quiet, ?_⟩
    rw [cycles_run, visits, countP_concat, List.countP_eq_length.mpr all, stops, length_samples]
    rfl
  · intro running
    rw [outcome, ← goesOn_iff, stops] at running
    cases running

theorem runAccount (m : Machine) (limit : Int) :
    RunAccount m limit (samples (visited limit.toNat m)) := by
  have outcome : (m.run (some limit)).2 = (cyclesUpTo limit.toNat m).2 := outcome_run m (some limit)
  obtain ⟨running, full, all⟩ | ⟨earlier, last, visits, all, stops, ended⟩ :=
    cyclesUpTo_ends limit.toNat m
  · exact runAccount_of_full (outcome.trans running) full all
  · exact runAccount_of_stopped (outcome.trans ended) visits all stops

/-- A cycle that is told to quit takes its sample and does nothing else, whatever key
the sample carries. -/
theorem untouched_of_quits (asked : m.quits = true) :
    m.cycle.2 = .ok .terminated ∧ Untouched m m.cycle.1 := by
  rw [cycle, cycleWith_quit asked, poll_snd]
  exact ⟨rfl, (Untouched.refl m).skipSample.report [quitNotice]⟩

end

theorem counts_created {state : State} {delay rate : Number} {script : List Sample}
    {start : Machine} (created : create state delay rate script = .ok start) :
    start.script = script ∧ start.polls = 0 ∧ start.cycles = 0 ∧ start.sleeps = 0 := by
  obtain ⟨clock, -, done⟩ := Fallible.bind_eq_ok_iff.mp created
  cases done
  exact ⟨rfl, rfl, rfl, rfl⟩

/-- The counts after any commands, of any run that follows them and of any cycle that is
told to quit. -/
theorem accounts_balance {state : State} {delay rate : Number} {script : List Sample}
    {start : Machine} (created : create state delay rate script = .ok start)
    (commands : List Command) :
    let m := start.performAll commands
    m.sleeps = m.cycles ∧
    m.polls = m.cycles + (Sample.polled script m.polls).countP Sample.quit +
      (start.history commands).countP raises ∧
    (∀ limit : Int, ∃ polled, RunAccount m limit polled) ∧
    (∀ (k : Machine) (key : Option Key), k.poll.1 = ⟨key, true⟩ →
      k.cycle.2 = .ok .terminated ∧ Untouched k k.cycle.1) := by
  intro m
  have accounts : Accounts start (start.history commands) m := accounts_performAll start commands
  obtain ⟨loaded, noPolls, noCycles, noSleeps⟩ := counts_created created
  have polls : m.polls = (start.history commands).length := by
    rw [accounts.polls, noPolls, Nat.zero_add]
  have cycles : m.cycles = (start.history commands).countP goesOn := by
    rw [accounts.cycles, noCycles, Nat.zero_add]
  have sleeps : m.sleeps = (start.history commands).countP goesOn := by
    rw [accounts.sleeps, noSleeps, Nat.zero_add]
  refine ⟨sleeps.trans cycles.symm, ?_, ?_, ?_⟩
  · have balance := accounts.ends
    rw [accounts.quits, loaded, ← cycles, ← polls] at balance
    exact balance
  · intro limit
    exact ⟨_, runAccount m limit⟩
  · intro k key asked
    exact untouched_of_quits (congrArg Sample.quit asked)

/-- Sets a register and returns to nowhere. -/
def faltering : Machine :=
  started { State.initial ⟨0, 0⟩ .classic with
    memory := Memory.zero.write Memory.programStart [0x60, 0x01, 0x00, 0xEE] }
    [.idle, .idle, ⟨some 3, true⟩]

/-- A run that may do nothing, one that ends in an error, one that is told to quit while
a key is held, and a cycle that ends in the error again. -/
theorem accounts_balance_faltering :
    let m := faltering.performAll [.run (some (-1)), .run (some 5), .run (some 5), .cycle]
    (m.cycles = 1 ∧ m.polls = 4) ∧ m.sleeps = m.cycles ∧
    m.polls = m.cycles + (Sample.polled [.idle, .idle, ⟨some 3, true⟩] m.polls).countP Sample.quit +
      (faltering.history [.run (some (-1)), .run (some 5), .run (some 5), .cycle]).countP raises ∧
    (∃ polled, RunAccount m (-1) polled) ∧ (∃ polled, RunAccount m 7 polled) := by
  have created : create _ Clock.defaultDelay Clock.defaultRate _ = .ok faltering :=
    create_started _ _
  obtain ⟨sleeps, polls, runs, -⟩ :=
    accounts_balance created [.run (some (-1)), .run (some 5), .run (some 5), .cycle]
  exact ⟨by decide +kernel, sleeps, polls, runs (-1), runs 7⟩

end Machine

end Chip8
