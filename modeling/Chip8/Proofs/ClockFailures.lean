import Chip8.Proofs.ClockSettings
import Chip8.Proofs.Frames
import Chip8.Proofs.SpecialDoubles

/-! When a clock that was accepted fails. The guard refuses what is at most zero, which
nothing infinite and nothing that is no number is: a delay or a period of that kind, or a
period that is zero, fails an advance, at the latest the second one. Settings in range
fail no advance, and no cycle of a machine. -/

set_option autoImplicit false

namespace Chip8

open Binary64

namespace Machine

section
variable {m : Machine}

theorem clock_cycle (m : Machine) :
    m.cycle.1.clock = m.clock ∨ m.cycle.1.clock = m.clock.advance.1 := by
  cases m.ending m.clock.advance with
  | quit _ ends =>
    rw [cycle, ends, poll_snd]
    exact .inl rfl
  | fault f _ ends =>
    rw [cycle, ends, poll_snd]
    exact .inl rfl
  | reached i after _ runs ends =>
    rw [cycle, ends]
    generalize m.clock.advance = reading
    obtain ⟨clock, ticks | error⟩ := reading
    · exact .inr rfl
    · exact .inr rfl

theorem timed_of_answer {ticks : Int} (answers : m.clock.advance.2 = .ok ticks) : m.Timed := by
  intro e fails
  cases m.ending m.clock.advance with
  | quit _ ends =>
    rw [cycle, ends] at fails
    cases fails
  | fault f _ ends =>
    rw [cycle, ends] at fails
    cases fails
  | reached i after _ runs ends =>
    rw [cycle, ends] at fails
    generalize m.clock.advance = reading at *
    obtain ⟨clock, ticks | error⟩ := reading
    · cases answers
    · cases fails

/-- A clock that always answers fails no cycle. -/
theorem timed_history {c : Clock Number Float} (answers : ∀ n, ∃ ticks, c.answer n = .ok ticks)
    (starts : m.clock = c) (commands : List Command) : ∀ k ∈ m.history commands, k.Timed := by
  -- Between cycles the machine's clock is the one clock after some number of advances.
  let kept (past : List Machine) (k : Machine) : Prop :=
    (∃ n, k.clock = c.after n) ∧ ∀ earlier ∈ past, earlier.Timed
  refine (kept_performAll kept ?cycle ?report ?start commands).2
  case start => exact ⟨⟨0, starts⟩, nofun⟩
  case report => exact fun past k notices before => before
  case cycle =>
    rintro past k ⟨⟨n, reads⟩, before⟩
    obtain ⟨ticks, answer⟩ := answers n
    rw [Clock.answer, ← reads] at answer
    have timed : k.Timed := timed_of_answer answer
    refine ⟨?_, ?_⟩
    · rcases k.clock_cycle with still | advanced
      · exact ⟨n, still.trans reads⟩
      · exact ⟨n + 1, by rw [advanced, reads]; rfl⟩
    · intro earlier within
      rcases List.mem_append.mp within with old | new
      · exact before earlier old
      · rw [List.mem_singleton.mp new]
        exact timed

end

end Machine

namespace Clock

/-- The delay is a finite double, and so is the period, which is not zero. -/
structure Usable (c : Clock Number Float) : Prop where
  delay : ∃ step d, c.delay.toFloat = .ok step ∧ rational? step = some d
  period : ∃ p, rational? c.period = some p ∧ p ≠ 0

section
variable {c : Clock Number Float} {step : Float}

theorem wholeQuotient_not_finite {x y : Float} (special : rational? x = none) :
    ∃ e, TimeArithmetic.wholeQuotient x y = .error e := by
  change ∃ e, (if y == 0.0 then .error .divisionByZero else toInt (floorQuotient x y)) = .error e
  split
  · exact ⟨_, rfl⟩
  · exact ⟨.notANumber, by rw [toInt, floorQuotient_nan special]⟩

theorem advance_fails {e : ArithmeticError} (steps : c.delay.toFloat = .ok step)
    (fails : TimeArithmetic.wholeQuotient (c.elapsed + step + 1e-9) c.period = .error e) :
    c.advance.2 = .error e := by
  have passes : ClockSetting.toTime c.delay = .ok step := steps
  have fails : TimeArithmetic.wholeQuotient
      (TimeArithmetic.add (TimeArithmetic.add c.elapsed step) TimeArithmetic.tolerance) c.period =
        .error e := fails
  simp only [Clock.advance, passes, fails]

theorem advance_not_finite (steps : c.delay.toFloat = .ok step)
    (special : rational? c.elapsed = none ∨ rational? step = none) :
    ∃ e, c.advance.2 = .error e := by
  have time : rational? (c.elapsed + step + 1e-9) = none :=
    add_not_finite (.inl (add_not_finite special))
  obtain ⟨e, fails⟩ := wholeQuotient_not_finite (y := c.period) time
  exact ⟨e, advance_fails steps fails⟩

/-- Without a finite period the first advance can still count ticks, but what it carries
on is not finite. -/
theorem advance_period_not_finite (steps : c.delay.toFloat = .ok step)
    (special : rational? c.period = none) :
    (∃ e, c.advance.2 = .error e) ∨
      c.advance.1.delay = c.delay ∧ rational? c.advance.1.elapsed = none := by
  cases counts : TimeArithmetic.wholeQuotient (c.elapsed + step + 1e-9) c.period with
  | error e => exact .inl ⟨e, advance_fails steps counts⟩
  | ok ticks =>
    rw [advance_answered steps counts]
    exact .inr ⟨rfl, sub_not_finite (mul_not_finite special)⟩

theorem fails_of_not_usable (unusable : ¬ c.Usable) : ∃ n ≤ 1, ∃ e, c.answer n = .error e := by
  cases steps : c.delay.toFloat with
  | error e =>
    have passes : ClockSetting.toTime c.delay = .error e := steps
    refine ⟨0, by decide, e, ?_⟩
    rw [answer, after, advance, passes]
  | ok step =>
    cases finite : rational? step with
    | none => exact ⟨0, by decide, advance_not_finite steps (.inr finite)⟩
    | some d =>
      cases beats : rational? c.period with
      | none =>
        rcases advance_period_not_finite steps beats with fails | ⟨delay, carried⟩
        · exact ⟨0, by decide, fails⟩
        · exact ⟨1, le_rfl, advance_not_finite (by rw [after, after, delay, steps]) (.inl carried)⟩
      | some p =>
        have zero : p = 0 := by
          by_contra nonzero
          exact unusable ⟨⟨step, d, steps, finite⟩, ⟨p, beats, nonzero⟩⟩
        have divides : (c.period == 0.0) = true := (beq_iff beats rational?_zero).mpr zero
        refine ⟨0, by decide, .divisionByZero, advance_fails steps ?_⟩
        exact if_pos divides

end

/-- The constructor's guard leaves in settings that fail, all of them by the second
advance if the delay or the period is not finite or the period is zero. In the range of
settings that doubles have room for no advance fails, and neither does a cycle of a
machine, unless by a fault: sleeping is taken to succeed, a cycle only counts it. -/
theorem never_fails_in_range {delay rate : Number} {c : Clock Number Float}
    (accepted : create delay rate = .ok c) :
    (∀ δ ρ, delay.rational? = some δ → rate.rational? = some ρ → InRange δ ρ →
      (∀ n, ∃ ticks : Nat, c.answer n = .ok (ticks : Int)) ∧
      ∀ state script, ∃ m, Machine.create state delay rate script = .ok m ∧
        ∀ commands, ∀ k ∈ m.history commands, k.Timed) ∧
    (¬ c.Usable → ∃ n ≤ 1, ∃ e, c.answer n = .error e) := by
  refine ⟨?_, fails_of_not_usable⟩
  intro δ ρ passes beats range
  obtain ⟨_, created, answers⟩ := answers_in_range passes beats range
  cases accepted.symm.trans created
  refine ⟨answers, fun state script => ?_⟩
  let m : Machine := ⟨state, c, script, 0, 0, 0, #[], #[]⟩
  have starts : Machine.create state delay rate script = .ok m := by
    rw [Machine.create, accepted]
    rfl
  have told (n : Nat) : ∃ ticks, c.answer n = .ok ticks := by
    obtain ⟨ticks, answer⟩ := answers n
    exact ⟨ticks, answer⟩
  exact ⟨m, starts, Machine.timed_history told rfl⟩

theorem usual_in_range : InRange (5764607523034235 * 2 ^ (-60 : Int)) 60 := by
  have top : (2 : ℚ) ^ 10 ≤ 2 ^ 990 := pow_le_pow_right₀ one_le_two (by decide)
  have bottom : (1 : ℚ) / 2 ^ 990 ≤ 1 / 2 ^ 10 :=
    one_div_le_one_div_of_le (by positivity) top
  refine ⟨bottom.trans ?_, le_trans ?_ top, le_trans ?_ top, le_trans ?_ top, ?_⟩ <;> norm_num

theorem rational?_defaultDelay :
    defaultDelay.rational? = some (5764607523034235 * 2 ^ (-60 : Int)) := by
  have value : value 0.005 = .finite false 5764607523034235 (-60) := by decide +kernel
  rw [defaultDelay, Number.rational?, Binary64.rational?, value, Value.rational?]
  norm_num [signed]

/-- The usual clock is in range. One whose delay is not a number is accepted as well, and
fails. -/
theorem never_fails_in_range_usual :
    (∃ c, create defaultDelay defaultRate = .ok c ∧
      (∃ δ ρ, defaultDelay.rational? = some δ ∧ defaultRate.rational? = some ρ ∧ InRange δ ρ) ∧
      ∀ n, ∃ ticks : Nat, c.answer n = .ok (ticks : Int)) ∧
    ∃ c, create (Number.float (0.0 / 0.0)) defaultRate = .ok c ∧ ¬ c.Usable ∧
      ∃ n ≤ 1, ∃ e, c.answer n = .error e := by
  constructor
  · have accepted : create defaultDelay defaultRate = .ok _ :=
      create_of_positive (by decide +kernel) (by decide +kernel) rfl
    obtain ⟨answers, -⟩ := (never_fails_in_range accepted).1 _ _ rational?_defaultDelay rfl
      usual_in_range
    exact ⟨_, accepted, ⟨_, _, rational?_defaultDelay, rfl, usual_in_range⟩, answers⟩
  · have accepted : create (Number.float (0.0 / 0.0)) defaultRate = .ok _ :=
      create_of_positive (by decide +kernel) (by decide +kernel) rfl
    have nan : value (0.0 / 0.0) = .nan := by decide +kernel
    refine ⟨_, accepted, ?unusable, (never_fails_in_range accepted).2 ?unusable⟩
    rintro ⟨⟨step, d, steps, finite⟩, -⟩
    cases steps
    rw [Binary64.rational?, nan] at finite
    cases finite

/-- Settings that are accepted and fail: a delay that is no number, a rate without limit,
an integer delay beyond the doubles, a rate so low that the period has no double, and, near
the limits of doubles, ticks that are negative. -/
theorem accepted_settings_fail :
    (∃ c, create (Number.float (0.0 / 0.0)) defaultRate = .ok c ∧
      c.answer 0 = .error .notANumber) ∧
    (∃ c, create defaultDelay (Number.float (1.0 / 0.0)) = .ok c ∧
      c.answer 0 = .error .divisionByZero) ∧
    (∃ c, create (Number.int (10 ^ 400)) defaultRate = .ok c ∧
      c.answer 0 = .error .integerTooLarge) ∧
    (∃ c, create defaultDelay (Number.float 5e-324) = .ok c ∧
      c.answer 0 = .ok 0 ∧ c.answer 1 = .error .notANumber) ∧
    (∃ c, create (Number.float 1e-40) (Number.float 9.53e24) = .ok c ∧
      c.answer 0 = .ok 9530000000000002 ∧ c.answer 1 = .ok (-2)) ∧
    ∃ m, Machine.create (.initial ⟨0, 0⟩ .classic) (.float (0.0 / 0.0)) defaultRate [] = .ok m ∧
      m.cycle.2 = .error (.arithmetic .notANumber) := by
  have accepts (delay rate : Number) {hz : Float} (hertz : rate.toFloat = .ok hz)
      (passes : delay.atMostZero = false) (beats : rate.atMostZero = false) :=
    create_of_positive passes beats hertz
  refine ⟨⟨_, accepts _ _ rfl ?_ ?_, ?_⟩, ⟨_, accepts _ _ rfl ?_ ?_, ?_⟩,
    ⟨_, accepts _ _ rfl ?_ ?_, ?_⟩, ⟨_, accepts _ _ rfl ?_ ?_, ?_, ?_⟩,
    ⟨_, accepts _ _ rfl ?_ ?_, ?_, ?_⟩, ⟨_, rfl, ?_⟩⟩
  all_goals decide +kernel

end Clock

end Chip8
