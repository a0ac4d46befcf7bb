import Chip8.Clock
import Mathlib.Algebra.BigOperators.Group.Finset.Basic
import Mathlib.Data.Rat.Floor
import Mathlib.Tactic.Linarith
import Mathlib.Tactic.Ring

/-! The timer clock over exact times. What an advance does not turn into ticks is carried
to the next one, and the carry can be negative by the tolerance, so that the sum of the
ticks is one floor of the whole time and the clock never drifts. -/

set_option autoImplicit false

namespace Chip8

instance : TimeArithmetic ℚ where
  zero := 0
  one := 1
  tolerance := 1 / 10 ^ 9
  add := (· + ·)
  subtract := (· - ·)
  multiply := (· * ·)
  divide := (· / ·)
  ofTicks := Int.cast
  wholeQuotient x y := if y = 0 then .error .divisionByZero else .ok ⌊x / y⌋

instance : ClockSetting ℚ ℚ where
  atMostZero x := decide (x ≤ 0)
  toTime := .ok

namespace Clock

section
variable {ν τ : Type} [TimeArithmetic τ] [ClockSetting ν τ]

/-- The clock after a number of advances. -/
def after (c : Clock ν τ) : Nat → Clock ν τ
  | 0 => c
  | n + 1 => (c.after n).advance.1

/-- What the clock answers to the advance that comes after `n` others. -/
def answer (c : Clock ν τ) (n : Nat) : Except ArithmeticError Int := (c.after n).advance.2

end

/-- The ticks that the next advance counts. -/
def ticks (c : Clock ℚ ℚ) : ℤ := ⌊(c.elapsed + c.delay + 1 / 10 ^ 9) / c.period⌋

/-- A clock of some delay and period, between any two of its advances. -/
structure Carries (delay period : ℚ) (c : Clock ℚ ℚ) : Prop where
  delay : c.delay = delay
  period : c.period = period
  elapsed : -(1 / 10 ^ 9) ≤ c.elapsed

section
variable {delay rate period : ℚ} {c : Clock ℚ ℚ}

theorem create_exact (passes : 0 < delay) (beats : 0 < rate) :
    create delay rate = .ok (⟨delay, 1 / rate, 0⟩ : Clock ℚ ℚ) := by
  have positive (x : ℚ) (h : 0 < x) : ¬ ClockSetting.atMostZero x = true := by
    simpa [ClockSetting.atMostZero] using h
  rw [create, if_neg (positive delay passes), if_neg (positive rate beats)]
  rfl

theorem wholeQuotient_exact {x y : ℚ} (divides : y ≠ 0) :
    TimeArithmetic.wholeQuotient x y = .ok ⌊x / y⌋ :=
  if_neg divides

theorem advance_exact (ticking : c.period ≠ 0) :
    c.advance =
      ({ c with elapsed := c.elapsed + c.delay - c.ticks * c.period }, .ok c.ticks) := by
  rw [advance]
  simp only [ClockSetting.toTime, wholeQuotient_exact ticking]
  rfl

theorem elapsed_advance (ticking : 0 < c.period) :
    c.advance.1.elapsed = c.elapsed + c.delay - c.ticks * c.period := by
  rw [advance_exact ticking.ne']

theorem ticks_mul_le (ticking : 0 < c.period) :
    c.ticks * c.period ≤ c.elapsed + c.delay + 1 / 10 ^ 9 :=
  (le_div_iff₀ ticking).mp (Int.floor_le _)

theorem lt_ticks_add_one_mul (ticking : 0 < c.period) :
    c.elapsed + c.delay + 1 / 10 ^ 9 < (c.ticks + 1) * c.period :=
  (div_lt_iff₀ ticking).mp (Int.lt_floor_add_one _)

theorem Carries.advance (carries : Carries delay period c) (ticking : 0 < period) :
    Carries delay period c.advance.1 := by
  obtain ⟨rfl, rfl, -⟩ := carries
  have counted := ticks_mul_le ticking
  have elapsed := elapsed_advance ticking
  refine ⟨?_, ?_, by linarith⟩
  · rw [advance_exact ticking.ne']
  · rw [advance_exact ticking.ne']

theorem Carries.ticks_nonneg (carries : Carries delay period c) (passes : 0 < delay)
    (ticking : 0 < period) : 0 ≤ c.ticks := by
  obtain ⟨rfl, rfl, carried⟩ := carries
  apply Int.floor_nonneg.mpr
  apply div_nonneg _ ticking.le
  linarith

/-- What an advance carries on is less than a period. -/
theorem Carries.elapsed_lt (carries : Carries delay period c) (ticking : 0 < period) :
    c.advance.1.elapsed < period - 1 / 10 ^ 9 := by
  obtain ⟨rfl, rfl, -⟩ := carries
  have whole := lt_ticks_add_one_mul ticking
  rw [elapsed_advance ticking]
  linarith

theorem carries_after (carries : Carries delay period c) (ticking : 0 < period) (n : Nat) :
    Carries delay period (c.after n) := by
  induction n with
  | zero => exact carries
  | succ n ih => exact ih.advance ticking

/-- The time that has not become ticks. -/
theorem elapsed_after (carries : Carries delay period c) (ticking : 0 < period) (n : Nat) :
    (c.after n).elapsed =
      c.elapsed + n * delay - period * (∑ k ∈ Finset.range n, (c.after k).ticks : ℤ) := by
  induction n with
  | zero => simp [after]
  | succ n ih =>
    have before := carries_after carries ticking n
    have beats : 0 < (c.after n).period := before.period ▸ ticking
    rw [after, elapsed_advance beats, before.delay, before.period, ih, Finset.sum_range_succ]
    push_cast
    ring

end

/-- All ticks together are the floor of the whole time, and the rest is less than a
period. A period can be shorter than the tolerance, or than the delay. -/
theorem ticks_without_drift {delay rate : ℚ} (passes : 0 < delay) (beats : 0 < rate) :
    ∃ (c : Clock ℚ ℚ) (ticks : ℕ → ℤ), create delay rate = .ok c ∧
      (∀ k, c.answer k = .ok (ticks k)) ∧ (∀ k, 0 ≤ ticks k) ∧
      ∀ n, 1 ≤ n →
        ∑ k ∈ Finset.range n, ticks k = ⌊(n * delay + 1 / 10 ^ 9) / (1 / rate)⌋ ∧
        (c.after n).elapsed = n * delay - 1 / rate * (∑ k ∈ Finset.range n, ticks k : ℤ) ∧
        -(1 / 10 ^ 9) ≤ (c.after n).elapsed ∧ (c.after n).elapsed < 1 / rate - 1 / 10 ^ 9 := by
  have ticking : 0 < 1 / rate := one_div_pos.mpr beats
  let c : Clock ℚ ℚ := ⟨delay, 1 / rate, 0⟩
  have start : Carries delay (1 / rate) c := ⟨rfl, rfl, by norm_num [c]⟩
  have carries (n : ℕ) := carries_after start ticking n
  refine ⟨c, fun k => (c.after k).ticks, create_exact passes beats, ?_, ?_, ?_⟩
  · intro k
    have period : (c.after k).period ≠ 0 := (carries k).period ▸ ticking.ne'
    rw [answer, advance_exact period]
  · intro k
    exact (carries k).ticks_nonneg passes ticking
  · intro n positive
    have elapsed : (c.after n).elapsed =
        n * delay - 1 / rate * (∑ k ∈ Finset.range n, (c.after k).ticks : ℤ) := by
      rw [elapsed_after start ticking n]
      simp [c]
    have above := (carries n).elapsed
    have below : (c.after n).elapsed < 1 / rate - 1 / 10 ^ 9 := by
      obtain ⟨m, rfl⟩ : ∃ m, n = m + 1 := ⟨n - 1, by omega⟩
      exact (carries m).elapsed_lt ticking
    refine ⟨?_, elapsed, above, below⟩
    symm
    -- The bounds on the carry leave no other floor. Before the first advance the upper
    -- one fails when the period is below the tolerance.
    rw [elapsed] at above below
    rw [Int.floor_eq_iff, le_div_iff₀ ticking, div_lt_iff₀ ticking]
    constructor
    · linarith
    · linarith

/-- Sixty cycles of a sixtieth of a second give sixty ticks. -/
theorem ticks_without_drift_sixty :
    (0 : ℚ) < 1 / 60 ∧ (0 : ℚ) < 60 ∧
    ∃ (c : Clock ℚ ℚ) (ticks : ℕ → ℤ), create (1 / 60 : ℚ) 60 = .ok c ∧
      (∀ k, c.answer k = .ok (ticks k)) ∧ (∀ k, 0 ≤ ticks k) ∧
      ∑ k ∈ Finset.range 60, ticks k = 60 ∧ (c.after 60).elapsed = 0 := by
  have passes : (0 : ℚ) < 1 / 60 := by norm_num
  have beats : (0 : ℚ) < 60 := by norm_num
  obtain ⟨c, ticks, created, answers, forward, drift⟩ := ticks_without_drift passes beats
  obtain ⟨sum, elapsed, -, -⟩ := drift 60 (by norm_num)
  have whole : ∑ k ∈ Finset.range 60, ticks k = 60 := by
    rw [sum, Int.floor_eq_iff]
    norm_num
  refine ⟨passes, beats, c, ticks, created, answers, forward, whole, ?_⟩
  rw [elapsed, whole]
  norm_num

end Clock

end Chip8
