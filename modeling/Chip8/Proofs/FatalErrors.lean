import Chip8.Proofs.Path

/-! A cycle that faults takes one sample and changes nothing else, and since no fault
depends on the key, every cycle after it faults in the same way. -/

set_option autoImplicit false

namespace Chip8.Machine

/-- All that a cycle works on is the same; scripts, polls and notices may differ. -/
structure Untouched (m n : Machine) : Prop where
  state : n.state = m.state
  clock : n.clock = m.clock
  cycles : n.cycles = m.cycles
  sleeps : n.sleeps = m.sleeps
  frames : n.frames = m.frames

/-- The machine after a cycle that took a sample and did nothing with it. -/
def skipSample (m : Machine) : Machine :=
  { m with script := m.script.tail, polls := m.polls + 1 }

namespace Untouched
variable {m n : Machine}

theorem refl (m : Machine) : Untouched m m := ⟨rfl, rfl, rfl, rfl, rfl⟩

theorem skipSample (same : Untouched m n) : Untouched m n.skipSample :=
  ⟨same.state, same.clock, same.cycles, same.sleeps, same.frames⟩

theorem report (same : Untouched m n) (notices : List Log.Notice) :
    Untouched m (n.report notices) :=
  ⟨same.state, same.clock, same.cycles, same.sleeps, same.frames⟩

theorem of_report (notices : List Log.Notice) (same : Untouched m n) :
    Untouched (m.report notices) n :=
  ⟨same.state, same.clock, same.cycles, same.sleeps, same.frames⟩

end Untouched

section
variable {m n : Machine} {f : Fault} {reading : Reading}

theorem cycleWith_of_fails (fails : m.Fails f) :
    m.cycleWith reading = (m.skipSample, .error (.fault f)) := by
  rw [cycleWith_fault fails, poll_snd]
  rfl

/-- Only the state decides whether and how a cycle faults. -/
theorem Fails.of_state_eq (fails : m.Fails f) (same : n.state = m.state)
    (goes : n.poll.1.quit = false) : n.Fails f := by
  refine ⟨goes, ?_⟩
  rw [same]
  exact instruct_error_key fails.2 n.poll.1.key

/-- One more cycle, be it a quit or a fault. -/
theorem untouched_cycleWith (fails : m.Fails f) (same : Untouched m n) (reading : Reading) :
    Untouched m (n.cycleWith reading).1 := by
  by_cases quit : n.poll.1.quit = true
  · rw [cycleWith_quit quit, poll_snd]
    exact same.skipSample.report [quitNotice]
  -- Otherwise the cycle meets the very state that faulted.
  · have again : n.Fails f := fails.of_state_eq same.state (Bool.eq_false_iff.mpr quit)
    rw [cycleWith_of_fails again]
    exact same.skipSample

theorem untouched_of_reachable (fails : m.Fails f) (path : Reachable m n) : Untouched m n :=
  path.preserves (Untouched m) (.refl m)
    fun _ reading _ _ same => untouched_cycleWith fails same reading

end

section
variable {start m : Machine} {f : Fault}

theorem cyclesUpTo_of_fails {k limit : Nat} (ran : cyclesUpTo k start = (m, .ok .running))
    (fails : m.Fails f) (within : k < limit) :
    cyclesUpTo limit start = (m.skipSample, .error (.fault f)) := by
  obtain ⟨rest, rfl⟩ : ∃ rest, limit = k + (rest + 1) := ⟨limit - k - 1, by omega⟩
  rw [cyclesUpTo_add ran, cyclesUpTo, cycle, cycleWith_of_fails fails]

theorem run_natCast {k : Nat} (ran : cyclesUpTo k start = (m, .ok .running)) :
    start.run (some k) = (m.report [m.stopNotice], .ok .running) := by
  have bound : ((some (k : Int)).map Int.toNat).getD unlimited = k := Int.toNat_natCast k
  unfold run
  rw [bound, ran]

theorem run_of_fails {k : Nat} {limit : Option Int}
    (ran : cyclesUpTo k start = (m, .ok .running)) (fails : m.Fails f)
    (within : k < (limit.map Int.toNat).getD unlimited) :
    start.run limit = (m.skipSample, .error (.fault f)) := by
  unfold run
  rw [cyclesUpTo_of_fails ran fails within]

end

/-- The first part is the cycle that faults, the second every cycle after it, and the
third a run that ends with it: it stops where the run without that cycle stops. -/
theorem fault_final {m : Machine} {f : Fault} (fails : m.Fails f) :
    m.cycle = (m.skipSample, .error (.fault f)) ∧
    (∀ n, Reachable m.cycle.1 n → Untouched m n ∧ ∀ reading, n.poll.1.quit = false →
      n.cycleWith reading = (n.skipSample, .error (.fault f))) ∧
    (∀ start k limit, cyclesUpTo k start = (m, .ok .running) →
      k < (limit.map Int.toNat).getD unlimited →
      (start.run limit).2 = .error (.fault f) ∧
        Untouched (start.run (some k)).1 (start.run limit).1) := by
  refine ⟨cycleWith_of_fails fails, ?_, ?_⟩
  · intro n path
    have first : Reachable m m.cycle.1 := (Path.stay trivial).cycle m.clock.advance trivial
    have same : Untouched m n := untouched_of_reachable fails (first.trans path)
    refine ⟨same, ?_⟩
    intro reading goes
    exact cycleWith_of_fails (fails.of_state_eq same.state goes)
  · intro start k limit ran within
    rw [run_of_fails ran fails within, run_natCast ran]
    exact ⟨rfl, (Untouched.refl m).skipSample.of_report [m.stopNotice]⟩

/-- A machine whose program counter is on the last byte of memory. -/
def astray : Machine := fresh { State.initial ⟨0, 0⟩ .classic with pc := 0xFFF }

theorem fault_final_astray :
    astray.cycle = (astray.skipSample, .error (.fault (.outsideMemory 0xFFF 2))) ∧
      Untouched astray astray.cycle.1 ∧
      (astray.run (some 7)).2 = .error (.fault (.outsideMemory 0xFFF 2)) ∧
      Untouched (astray.run (some 0)).1 (astray.run (some 7)).1 := by
  have fails : astray.Fails (.outsideMemory 0xFFF 2) := ⟨rfl, rfl⟩
  obtain ⟨once, after, runs⟩ := fault_final fails
  exact ⟨once, (after _ (.stay trivial)).1, runs astray 0 (some 7) rfl (by decide)⟩

end Chip8.Machine
