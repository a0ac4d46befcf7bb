import Chip8.Proofs.ExactClock
import Chip8.Proofs.FloorQuotient

/-! The timer clock over doubles, while they have room. The carry of an advance differs
from the exact one by the roundings of that advance alone, since it is the carry itself
that the next advance starts from. As long as the delay outweighs these roundings, the
time of the next advance is not negative, and neither are the ticks counted in it. -/

set_option autoImplicit false

namespace Chip8.Clock

open Binary64

/-- A delay, a period and a tolerance among whose sums and quotients doubles have room,
and none of which is lost beside the others. -/
structure Moderate (delay period tolerance : ℚ) : Prop where
  tolerance_pos : 0 < tolerance
  le_period : 2 ^ (-1000 : Int) ≤ period
  sum_lt : 4 * (period + delay + tolerance) < 2 ^ 1000
  quotient_lt : 4 * (period + delay + tolerance) < 2 ^ 1000 * period
  sum_le : 4 * (period + delay + tolerance) ≤ 2 ^ 44 * delay

section
variable {delay period tolerance : ℚ}

theorem Moderate.period_pos (moderate : Moderate delay period tolerance) : 0 < period :=
  (two_zpow_pos _).trans_le moderate.le_period

theorem Moderate.delay_pos (moderate : Moderate delay period tolerance) : 0 < delay := by
  have := moderate.period_pos
  have := moderate.tolerance_pos
  have := moderate.sum_le
  linarith

variable {elapsed step slack x y : Float} {e a b : ℚ}

theorem near_time (moderate : Moderate delay period tolerance)
    (known : rational? elapsed = some e) (passes : rational? step = some delay)
    (absorbs : rational? slack = some tolerance) (lower : -(tolerance + delay / 2) ≤ e)
    (upper : e ≤ 2 * period + delay) :
    ∃ s x, rational? (elapsed + step) = some s ∧ rational? (elapsed + step + slack) = some x ∧
      0 ≤ x ∧ x ≤ 4 * (period + delay + tolerance) ∧
      |x - (s + tolerance)| ≤ 4 * (period + delay + tolerance) / 2 ^ 52 := by
  obtain ⟨room, -, finite, -, fine⟩ := id moderate
  have ticking := moderate.period_pos
  have within {v : ℚ} (small : v ≤ 3 * (period + delay + tolerance)) : v < 2 ^ 1023 :=
    lt_two_pow (lt_of_le_of_lt (by linarith) finite) (by decide)
  have sum : |e + delay| ≤ 2 * (period + delay + tolerance) := by
    rw [abs_le]
    constructor <;> linarith
  obtain ⟨s, first, near⟩ := near_add known passes (within (by linarith))
  obtain ⟨low, high⟩ := abs_le.mp near
  have forward : 0 ≤ s + tolerance := by linarith
  have bounded : s + tolerance ≤ 3 * (period + delay + tolerance) := by
    have := (abs_le.mp sum).2
    linarith
  obtain ⟨x, second, low', high'⟩ := (near_add first absorbs (by
    rw [abs_of_nonneg forward]
    exact within bounded)).bounds forward
  refine ⟨s, x, first, second, by linarith, by linarith, abs_le.mpr ?_⟩
  constructor <;> linarith

/-- The ticks counted in a time, as the time that they make up. -/
theorem wholeQuotient_bounds (left : rational? x = some a) (right : rational? y = some b)
    (nonneg : 0 ≤ a) (positive : 0 < b) (small : a < 2 ^ 1000) (few : a < 2 ^ 1000 * b) :
    ∃ ticks : Nat, TimeArithmetic.wholeQuotient x y = .ok (ticks : Int) ∧
      ticks * b ≤ a + a / 2 ^ 47 ∧ a - 2 * b - a / 2 ^ 47 ≤ ticks * b := by
  obtain ⟨t, quotient, near⟩ := near_floorQuotient left right nonneg positive small
    ((div_lt_iff₀ positive).mpr few)
  have forward := floor_div_nonneg nonneg positive
  have low : ⌊a / b⌋ * b ≤ a := (le_div_iff₀ positive).mp (Int.floor_le _)
  have high : a < (⌊a / b⌋ + 1) * b := (div_lt_iff₀ positive).mp (Int.lt_floor_add_one _)
  generalize ⌊a / b⌋ = k at *
  obtain ⟨below, above⟩ := abs_le.mp near
  have nonneg' : 0 ≤ t := by linarith
  obtain ⟨n, whole⟩ := Int.eq_ofNat_of_zero_le (Int.floor_nonneg.mpr nonneg')
  have answers : TimeArithmetic.wholeQuotient x y = .ok ⌊t⌋ := by
    have divides : ¬ (y == 0.0) = true := by
      rw [beq_iff right rational?_zero]
      exact positive.ne'
    change (if y == 0.0 then _ else toInt (floorQuotient x y)) = _
    rw [if_neg divides, toInt_of_nonneg quotient nonneg']
  have down := Int.floor_le t
  have up := Int.lt_floor_add_one t
  rw [whole, Int.cast_natCast] at down up
  rw [whole] at answers
  refine ⟨n, answers, ?_, ?_⟩
  · have most := mul_le_mul_of_nonneg_right
      (by linarith : (n : ℚ) ≤ k + k / 2 ^ 47) positive.le
    linarith
  · have fewest := mul_le_mul_of_nonneg_right
      (by linarith : (k : ℚ) - k / 2 ^ 47 - 1 ≤ n) positive.le
    linarith

/-- The time that some ticks make up. -/
theorem near_product {n : Nat} (right : rational? y = some b) (least : 2 ^ (-1000 : Int) ≤ b)
    (fits : (n : ℚ) < 2 ^ 1001) (small : n * b < 2 ^ 1001) :
    ∃ u, rational? (Float.ofInt n * y) = some u ∧ |u - n * b| ≤ n * b / 2 ^ 49 := by
  have positive : 0 < b := (two_zpow_pos _).trans_le least
  obtain ⟨v, written, near⟩ := near_ofNat (lt_two_pow_of_cast fits (by decide))
  obtain ⟨below, above⟩ := abs_le.mp near
  have counted : (0 : ℚ) ≤ n := Nat.cast_nonneg n
  have nonneg : 0 ≤ v := by linarith
  have low := mul_le_mul_of_nonneg_right (by linarith : n - n * (3 / 2 ^ 52) ≤ v) positive.le
  have high := mul_le_mul_of_nonneg_right (by linarith : v ≤ n + n * (3 / 2 ^ 52)) positive.le
  have whole : 0 ≤ v * b := mul_nonneg nonneg positive.le
  have finite : |v * b| < 2 ^ 1023 := by
    rw [abs_of_nonneg whole]
    refine lt_two_pow (j := 1002) ?_ (by decide)
    rw [pow_succ]
    refine lt_of_le_of_lt ?_ (mul_lt_mul_of_pos_right small two_pos)
    have : 0 ≤ n * b := mul_nonneg counted positive.le
    linarith
  have normal : v * b = 0 ∨ 2 ^ (-1022 : Int) ≤ |v * b| := by
    rcases Nat.eq_zero_or_pos n with none | some
    · left
      rw [none] at below above
      norm_num at below above
      rw [le_antisymm above below, zero_mul]
    · right
      have one : (1 : ℚ) ≤ n := by exact_mod_cast some
      have half : (2 : ℚ) ^ (-1 : Int) ≤ v := by
        rw [zpow_neg_one]
        linarith
      rw [abs_of_nonneg whole]
      calc (2 : ℚ) ^ (-1022 : Int) ≤ 2 ^ (-1 + -1000 : Int) :=
            zpow_le_zpow_right₀ one_le_two (by decide)
        _ = 2 ^ (-1 : Int) * 2 ^ (-1000 : Int) := zpow_add₀ two_ne_zero _ _
        _ ≤ v * b := mul_le_mul half least (two_zpow_pos _).le nonneg
  obtain ⟨u, product, low', high'⟩ := (near_mul written right finite normal).bounds whole
  refine ⟨u, product, abs_le.mpr ?_⟩
  constructor <;> linarith

end

/-- A clock between two advances, with a carry that is hardly below the tolerance and
hardly beyond the next tick. -/
structure Settled (delay : Number) (period : Float) (d p τ : ℚ) (c : Clock Number Float) :
    Prop where
  delay : c.delay = delay
  period : c.period = period
  elapsed : ∃ e, rational? c.elapsed = some e ∧ -(τ + d / 2) ≤ e ∧ e ≤ 2 * p + d

section
variable {delay : Number} {period step : Float} {d p τ : ℚ} {c : Clock Number Float}

theorem advance_answered {ticks : Int} (steps : c.delay.toFloat = .ok step)
    (counts : TimeArithmetic.wholeQuotient (c.elapsed + step + 1e-9) c.period = .ok ticks) :
    c.advance =
      ({ c with elapsed := c.elapsed + step - Float.ofInt ticks * c.period }, .ok ticks) := by
  have passes : ClockSetting.toTime c.delay = .ok step := steps
  have counts : TimeArithmetic.wholeQuotient
      (TimeArithmetic.add (TimeArithmetic.add c.elapsed step) TimeArithmetic.tolerance) c.period =
        .ok ticks := counts
  simp only [Clock.advance, passes, counts]
  rfl

/-- What the roundings of one advance lose is small beside the delay that it adds. -/
theorem Settled.advance (moderate : Moderate d p τ) (steps : delay.toFloat = .ok step)
    (passes : rational? step = some d) (beats : rational? period = some p)
    (absorbs : rational? 1e-9 = some τ) (settled : Settled delay period d p τ c) :
    (∃ ticks : Nat, c.advance.2 = .ok (ticks : Int)) ∧
      Settled delay period d p τ c.advance.1 := by
  obtain ⟨rfl, rfl, e, known, lower, upper⟩ := settled
  obtain ⟨room, least, finite, few, fine⟩ := id moderate
  have ticking := moderate.period_pos
  have forward := moderate.delay_pos
  obtain ⟨s, x, first, second, nonneg, bound, near⟩ :=
    near_time moderate known passes absorbs lower upper
  obtain ⟨n, counts, most, fewest⟩ := wholeQuotient_bounds second beats nonneg ticking
    (bound.trans_lt finite) (bound.trans_lt few)
  have product_le : n * p ≤ 4 * (p + d + τ) * 2 := by linarith
  have product_lt : n * p < 2 ^ 1001 := by
    rw [pow_succ]
    exact product_le.trans_lt (mul_lt_mul_of_pos_right finite two_pos)
  have ticks_lt : (n : ℚ) < 2 ^ 1001 := by
    refine lt_of_mul_lt_mul_right (product_le.trans_lt ?_) ticking.le
    rw [pow_succ, mul_right_comm _ 2 p]
    exact mul_lt_mul_of_pos_right few two_pos
  -- The ticks are taken back as a double of their own, whose rounding enters the carry.
  obtain ⟨u, product, near'⟩ := near_product beats least ticks_lt product_lt
  obtain ⟨below, above⟩ := abs_le.mp near
  obtain ⟨below', above'⟩ := abs_le.mp near'
  have rest : |s - u| ≤ 4 * (p + d + τ) := by
    rw [abs_le]
    constructor <;> linarith
  obtain ⟨e', carried, near''⟩ := near_sub first product
    (lt_two_pow (rest.trans_lt finite) (by decide))
  obtain ⟨below'', above''⟩ := abs_le.mp near''
  rw [advance_answered steps counts]
  refine ⟨⟨n, rfl⟩, rfl, rfl, e', carried, ?_, ?_⟩
  · linarith
  · linarith

end

end Chip8.Clock
