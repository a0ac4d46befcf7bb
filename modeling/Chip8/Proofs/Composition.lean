import Chip8.Proofs.History

/-! Runs one after another. A machine never reads what it reported, so a run that
continues another does what one long run does; all that it leaves behind is the line
that the first run ended with. -/

set_option autoImplicit false

namespace Chip8.Machine

/-- The machine with other notices behind it. -/
def having (m : Machine) (notices : Array Log.Notice) : Machine := { m with notices }

theorem append_notices (notices : Array Log.Notice) (first rest : List Log.Notice) :
    notices ++ (first ++ rest) = notices ++ first ++ rest := by
  apply Array.toList_inj.mp
  simp

section
variable {m : Machine} {notices : Array Log.Notice}

theorem poll_having : (m.having notices).poll = (m.poll.1, m.poll.2.having notices) := by
  unfold poll having
  cases m.script <;> rfl

theorem display_having (i : Instruction) (after : State) :
    (m.having notices).display i after = (m.display i after).having notices := by
  unfold display
  split <;> rfl

theorem commit_having (after : State) (reading : Reading) :
    (m.having notices).commit after reading =
      ((m.commit after reading).1.having notices, (m.commit after reading).2) := by
  obtain ⟨clock, ticks⟩ := reading
  cases ticks <;> rfl

end

/-- Some work of a machine adds the same notices to any that it finds, and comes to the
same otherwise. -/
def Unread (work : Machine → Machine × Except Error Outcome) (m : Machine) : Prop :=
  ∃ new : List Log.Notice, ∀ notices,
    work (m.having notices) = ((work m).1.having (notices ++ new), (work m).2)

theorem unread_cycle (m : Machine) : Unread cycle m := by
  cases m.ending m.clock.advance with
  | quit asked ends =>
    refine ⟨[quitNotice], ?_⟩
    intro notices
    have asked : (m.having notices).poll.1.quit = true := by rw [poll_having]; exact asked
    have again : (m.having notices).cycle = _ := cycleWith_quit asked
    rw [again, cycle, ends, poll_having]
    rfl
  | fault f fails ends =>
    refine ⟨[], ?_⟩
    intro notices
    have fails : (m.having notices).Fails f := by rw [Fails, poll_having]; exact fails
    have again : (m.having notices).cycle = _ := cycleWith_fault fails
    rw [again, cycle, ends, poll_having]
    rfl
  | reached i after goes runs ends =>
    refine ⟨i.notices, ?_⟩
    intro notices
    have goes : (m.having notices).poll.1.quit = false := by rw [poll_having]; exact goes
    have runs : instruct (m.having notices).state (m.having notices).poll.1.key =
        .ok (i, after) := by rw [poll_having]; exact runs
    have again : (m.having notices).cycle = _ := cycleWith_commit goes runs
    have reported : (m.poll.2.having notices).report i.notices =
        (m.poll.2.report i.notices).having (notices ++ i.notices) := rfl
    rw [again, cycle, ends, poll_having, reported, display_having, commit_having]
    rfl

theorem unread_cyclesUpTo (limit : Nat) (m : Machine) : Unread (cyclesUpTo limit) m := by
  induction limit generalizing m with
  | zero => exact ⟨[], fun notices => by simp [cyclesUpTo, having]⟩
  | succ limit ih =>
    obtain ⟨first, once⟩ := unread_cycle m
    have goesOn (notices) : (m.having notices).goesOn = m.goesOn := by
      simp only [Machine.goesOn, once notices]
    by_cases running : m.goesOn = true
    · obtain ⟨rest, again⟩ := ih m.cycle.1
      refine ⟨first ++ rest, ?_⟩
      intro notices
      rw [cyclesUpTo_succ, cyclesUpTo_succ, goesOn, if_pos running, if_pos running, once, again,
        append_notices]
    · refine ⟨first, ?_⟩
      intro notices
      rw [cyclesUpTo_succ, cyclesUpTo_succ, goesOn, if_neg running, if_neg running, once]

theorem unread_run (limit : Option Int) (m : Machine) : Unread (fun k => k.run limit) m := by
  obtain ⟨new, ran⟩ := unread_cyclesUpTo ((limit.map Int.toNat).getD unlimited) m
  cases ended : cyclesUpTo ((limit.map Int.toNat).getD unlimited) m with
  | mk stop result =>
  simp only [ended] at ran
  cases result with
  | error e =>
    refine ⟨new, ?_⟩
    intro notices
    simp only [run, ran, ended]
  | ok outcome =>
    refine ⟨new ++ [stop.stopNotice], ?_⟩
    intro notices
    simp only [run, ran, ended, append_notices]
    rfl

/-- The run that a limit allows, without the line at its end. -/
theorem cyclesUpTo_of_run {start : Machine} {limit : Option Int} {outcome : Outcome}
    (ends : (start.run limit).2 = .ok outcome) :
    ∃ stop, cyclesUpTo ((limit.map Int.toNat).getD unlimited) start = (stop, .ok outcome) ∧
      (start.run limit).1 = stop.report [stop.stopNotice] := by
  unfold run at ends ⊢
  split at ends
  case h_1 stop reached done =>
    cases ends
    exact ⟨stop, done, rfl⟩
  case h_2 => cases ends

/-- The long run goes on where the first of two runs stopped, before its last line. -/
theorem run_run {start : Machine} {first : Nat}
    (continues : (start.run (some first)).2 = .ok .running) (second : Nat) :
    let mid := (start.run (some first)).1
    let long := start.run (some (first + second))
    ∃ (earlier : Array Log.Notice) (later : List Log.Notice),
      mid.notices = earlier.push mid.stopNotice ∧ long.1.notices = earlier ++ later ∧
      mid.run (some second) =
        ({ long.1 with notices := earlier.push mid.stopNotice ++ later }, long.2) := by
  intro mid long
  obtain ⟨stop, reached, ended⟩ := cyclesUpTo_of_run continues
  have counted : ((some (first : Int)).map Int.toNat).getD unlimited = first :=
    Int.toNat_natCast first
  rw [counted] at reached
  have through : long = stop.run (some second) := by
    have sum : ((some ((first : Int) + second)).map Int.toNat).getD unlimited = first + second :=
      Int.toNat_natCast (first + second)
    have rest : ((some (second : Int)).map Int.toNat).getD unlimited = second :=
      Int.toNat_natCast second
    simp only [long, run, sum, rest, cyclesUpTo_add reached]
  -- The last line of the first run is all that tells its machine from the long run's.
  have reported : mid = stop.having (stop.notices.push stop.stopNotice) := by
    simp [mid, ended, report, having]
  obtain ⟨later, again⟩ := unread_run (some second) stop
  have plain : stop.run (some second) = _ := again stop.notices
  refine ⟨stop.notices, later, ?_, ?_, ?_⟩
  · rw [reported]
    rfl
  · rw [through, plain]
    rfl
  · rw [reported, through]
    exact again _

/-- Jumps over an unsupported word to a return, with nowhere to return to. -/
def falling : Machine :=
  started { State.initial ⟨0, 0⟩ .classic with
    memory := Memory.zero.write Memory.programStart [0x12, 0x02, 0x00, 0x00, 0x00, 0xEE] } []

theorem run_run_falling :
    let mid := (falling.run (some (2 : Nat))).1
    let long := falling.run (some ((2 : Nat) + (3 : Nat)))
    (falling.run (some (2 : Nat))).2 = .ok .running ∧ long.2.toOption = none ∧
    ∃ (earlier : Array Log.Notice) (later : List Log.Notice),
      mid.notices = earlier.push mid.stopNotice ∧ long.1.notices = earlier ++ later ∧
      mid.run (some (3 : Nat)) =
        ({ long.1 with notices := earlier.push mid.stopNotice ++ later }, long.2) := by
  have continues : (falling.run (some (2 : Nat))).2 = .ok .running :=
    Fallible.toOption_eq_some_iff.mp (by decide +kernel)
  exact ⟨continues, by decide +kernel, run_run continues 3⟩

end Chip8.Machine
