import Chip8.Proofs.SteadyClock

/-! Settings whose clocks never fail. A setting is read as the number that it stands for,
and a range of delays and rates is given in those numbers. The double of a setting, the
period and the tolerance are each rounded once or twice, which leaves them within the
bounds that a steady clock needs. -/

set_option autoImplicit false

namespace Chip8

open Binary64

/-- The number that a setting stands for, if it is finite. -/
def Number.rational? : Number → Option ℚ
  | .int value => some value
  | .float value => Binary64.rational? value

theorem Binary64.isInf_of_rational? {x : Float} {a : ℚ} (known : rational? x = some a) :
    x.isInf = false := by
  change x.toModel.unpack.isInf = false
  have finite := exact_of_rational? known
  generalize x.toModel.unpack = u at *
  cases finite with
  | zero s => rfl
  | finite s m e positive canonical => rfl

section
variable {setting : Number} {q : ℚ}

theorem Number.atMostZero_of_pos (known : setting.rational? = some q) (positive : 0 < q) :
    setting.atMostZero = false := by
  cases setting with
  | int value =>
    cases known
    exact decide_eq_false (not_le.mpr (by exact_mod_cast positive))
  | float value =>
    exact decide_eq_false (mt (le_iff known rational?_zero).mp (not_le.mpr positive))

theorem Number.near_toFloat (known : setting.rational? = some q) (positive : 0 < q)
    (small : q ≤ 2 ^ 990) :
    ∃ x r, setting.toFloat = .ok x ∧ Binary64.rational? x = some r ∧
      q - q * (3 / 2 ^ 52) ≤ r ∧ r ≤ q + q * (3 / 2 ^ 52) := by
  cases setting with
  | float value =>
    have room : 0 ≤ q * (3 / 2 ^ 52) := by positivity
    exact ⟨value, q, rfl, known, by linarith, by linarith⟩
  | int value =>
    cases known
    obtain ⟨n, rfl⟩ := Int.eq_ofNat_of_zero_le (by exact_mod_cast positive.le : 0 ≤ value)
    rw [Int.cast_natCast] at *
    have fits : (n : ℚ) < 2 ^ 991 := small.trans_lt (pow_lt_pow_right₀ one_lt_two (by decide))
    obtain ⟨r, nearest, near⟩ := near_ofNat (lt_two_pow_of_cast fits (by decide))
    obtain ⟨below, above⟩ := abs_le.mp near
    refine ⟨Float.ofNat n, r, ?_, nearest, by linarith, by linarith⟩
    change (if (Float.ofNat n).isInf then _ else _) = _
    rw [isInf_of_rational? nearest]
    rfl

end

namespace Clock

/-- A delay and a rate for which the arithmetic of a clock has room: neither is near the
limits of doubles, and the delay is not lost beside a period. -/
structure InRange (delay rate : ℚ) : Prop where
  le_rate : 1 / 2 ^ 990 ≤ rate
  rate_le : rate ≤ 2 ^ 990
  delay_le : delay ≤ 2 ^ 990
  ticks_le : delay * rate ≤ 2 ^ 990
  period_le : 1 / rate + 1 / 10 ^ 9 ≤ 2 ^ 40 * delay

theorem near_tolerance :
    ∃ τ, rational? 1e-9 = some τ ∧ 1 / 10 ^ 9 - 1 / 10 ^ 20 ≤ τ ∧ τ ≤ 1 / 10 ^ 9 + 1 / 10 ^ 20 := by
  have value : value 1e-9 = .finite false 4835703278458517 (-82) := by decide +kernel
  refine ⟨4835703278458517 * 2 ^ (-82 : Int), ?_, ?_, ?_⟩
  · rw [rational?, value, Value.rational?]
    norm_num [signed]
  · norm_num
  · norm_num

theorem near_period {rate : Float} {r ρ : ℚ} (known : rational? rate = some r)
    (below : ρ - ρ * (3 / 2 ^ 52) ≤ r) (above : r ≤ ρ + ρ * (3 / 2 ^ 52))
    (least : 1 / 2 ^ 990 ≤ ρ) (most : ρ ≤ 2 ^ 990) :
    ∃ p, rational? (1.0 / rate) = some p ∧ 1 / ρ - 1 / ρ / 2 ^ 48 ≤ p ∧
      p ≤ 1 / ρ + 1 / ρ / 2 ^ 48 := by
  have top : (0 : ℚ) < 2 ^ 990 := by positivity
  have beats : 0 < ρ := (one_div_pos.mpr top).trans_le least
  have positive : 0 < r := lt_of_lt_of_le (by linarith) below
  have long : 1 / ρ ≤ 2 ^ 990 := (one_div_le top beats).mp least
  have short : 1 / 2 ^ 990 ≤ 1 / ρ := one_div_le_one_div_of_le beats most
  have whole : 0 < 1 / ρ := one_div_pos.mpr beats
  have unit : 1 / ρ * ρ = 1 := one_div_mul_cancel beats.ne'
  have low := mul_le_mul_of_nonneg_left below whole.le
  have high := mul_le_mul_of_nonneg_left above whole.le
  have low' : 1 / ρ - 1 / ρ / 2 ^ 49 ≤ 1 / r := by
    rw [le_div_iff₀ positive]
    linarith
  have high' : 1 / r ≤ 1 / ρ + 1 / ρ / 2 ^ 49 := by
    rw [div_le_iff₀ positive]
    linarith
  have nonneg : 0 ≤ 1 / r := (one_div_pos.mpr positive).le
  have finite : |1 / r| < 2 ^ 1023 := by
    rw [abs_of_nonneg nonneg]
    calc 1 / r ≤ 1 / ρ * 2 := by linarith
      _ ≤ 2 ^ 990 * 2 := mul_le_mul_of_nonneg_right long two_pos.le
      _ = 2 ^ 991 := (pow_succ 2 990).symm
      _ < 2 ^ 1023 := pow_lt_pow_right₀ one_lt_two (by decide)
  have normal : 2 ^ (-1022 : Int) ≤ |1 / r| := by
    rw [abs_of_nonneg nonneg]
    calc (2 : ℚ) ^ (-1022 : Int) ≤ 2 ^ (-990 + -1 : Int) :=
          zpow_le_zpow_right₀ one_le_two (by decide)
      _ = 1 / 2 ^ 990 * (1 / 2) := by
          rw [zpow_add₀ two_ne_zero, zpow_neg, zpow_neg_one, one_div, one_div]
          rfl
      _ ≤ 1 / ρ * (1 / 2) := mul_le_mul_of_nonneg_right short (by norm_num)
      _ ≤ 1 / r := by linarith
  obtain ⟨p, inverse, low'', high''⟩ :=
    (near_div rational?_one known positive.ne' finite (.inr normal)).bounds nonneg
  exact ⟨p, inverse, by linarith, by linarith⟩

theorem InRange.moderate {δ ρ d p τ : ℚ} (range : InRange δ ρ)
    (delay_ge : δ - δ * (3 / 2 ^ 52) ≤ d) (delay_le : d ≤ δ + δ * (3 / 2 ^ 52))
    (period_ge : 1 / ρ - 1 / ρ / 2 ^ 48 ≤ p) (period_le : p ≤ 1 / ρ + 1 / ρ / 2 ^ 48)
    (tolerance_ge : 1 / 10 ^ 9 - 1 / 10 ^ 20 ≤ τ) (tolerance_le : τ ≤ 1 / 10 ^ 9 + 1 / 10 ^ 20) :
    Moderate d p τ := by
  obtain ⟨least, most, longest, many, fine⟩ := range
  have split : (2 : ℚ) ^ 1000 = 2 ^ 10 * 2 ^ 990 := by rw [← pow_add]
  have one : (1 : ℚ) ≤ 2 ^ 990 := one_le_pow₀ one_le_two
  have tiny : (2 : ℚ) ^ (-1000 : Int) = 1 / 2 ^ 990 * (1 / 2 ^ 10) := by
    rw [one_div, one_div, ← mul_inv, ← pow_add]
    rfl
  have beats : 0 < ρ := (by positivity : (0 : ℚ) < 1 / 2 ^ 990).trans_le least
  have short : 1 / 2 ^ 990 ≤ 1 / ρ := one_div_le_one_div_of_le beats most
  have long : 1 / ρ ≤ 2 ^ 990 := (one_div_le (by positivity) beats).mp least
  have whole : 0 < 1 / ρ := one_div_pos.mpr beats
  have positive : 0 < p := by linarith
  have enough : 1 ≤ 2 ^ 990 * (1 / ρ) := by
    rw [mul_one_div, le_div_iff₀ beats, one_mul]
    exact most
  have few : δ ≤ 2 ^ 990 * (1 / ρ) := by
    rw [mul_one_div, le_div_iff₀ beats]
    exact many
  have scaled : p ≤ 2 ^ 990 * p := le_mul_of_one_le_left positive.le one
  have product : 2 ^ 990 * (1 / ρ) ≤ 2 ^ 990 * (p * 2) :=
    mul_le_mul_of_nonneg_left (by linarith) (zero_le_one.trans one)
  -- What is left is linear in the powers, which are too long to be written out.
  generalize (2 : ℚ) ^ 990 = top at *
  generalize 1 / ρ = period at *
  generalize 1 / top = bottom at *
  refine ⟨by linarith, ?_, ?_, ?_, by linarith⟩
  · rw [tiny]
    clear split tiny
    linarith
  · rw [split]
    clear split tiny
    linarith
  · rw [split]
    clear split tiny
    linarith

section
variable {delay : Number} {period step : Float} {d p τ : ℚ} {c : Clock Number Float}

theorem Settled.after (moderate : Moderate d p τ) (steps : delay.toFloat = .ok step)
    (passes : rational? step = some d) (beats : rational? period = some p)
    (absorbs : rational? 1e-9 = some τ) (settled : Settled delay period d p τ c) (n : Nat) :
    Settled delay period d p τ (c.after n) := by
  induction n with
  | zero => exact settled
  | succ n ih => exact (ih.advance moderate steps passes beats absorbs).2

end

theorem create_of_positive {delay rate : Number} {hz : Float} (passes : delay.atMostZero = false)
    (beats : rate.atMostZero = false) (hertz : rate.toFloat = .ok hz) :
    create delay rate = .ok (⟨delay, 1.0 / hz, 0.0⟩ : Clock Number Float) := by
  have passes : ClockSetting.atMostZero delay = false := passes
  have beats : ClockSetting.atMostZero rate = false := beats
  have hertz : ClockSetting.toTime rate = .ok hz := hertz
  rw [create, passes, beats, hertz]
  rfl

/-- A clock in range is accepted, and counts ticks at every advance. -/
theorem answers_in_range {delay rate : Number} {δ ρ : ℚ} (passes : delay.rational? = some δ)
    (beats : rate.rational? = some ρ) (range : InRange δ ρ) :
    ∃ c, create delay rate = .ok c ∧ ∀ n, ∃ ticks : Nat, c.answer n = .ok (ticks : Int) := by
  have top : (0 : ℚ) < 2 ^ 990 := by positivity
  have rate_pos : 0 < ρ := (one_div_pos.mpr top).trans_le range.le_rate
  have whole : 0 < 1 / ρ := one_div_pos.mpr rate_pos
  have fine := range.period_le
  have delay_pos : 0 < δ := by linarith
  obtain ⟨step, d, steps, passes', delay_ge, delay_le⟩ :=
    delay.near_toFloat passes delay_pos range.delay_le
  obtain ⟨hz, r, hertz, beats', rate_ge, rate_le⟩ :=
    rate.near_toFloat beats rate_pos range.rate_le
  obtain ⟨p, known, period_ge, period_le⟩ :=
    near_period beats' rate_ge rate_le range.le_rate range.rate_le
  obtain ⟨τ, absorbs, tolerance_ge, tolerance_le⟩ := near_tolerance
  have moderate :=
    range.moderate delay_ge delay_le period_ge period_le tolerance_ge tolerance_le
  let c : Clock Number Float := ⟨delay, 1.0 / hz, 0.0⟩
  have created : create delay rate = .ok c := create_of_positive
    (delay.atMostZero_of_pos passes delay_pos) (rate.atMostZero_of_pos beats rate_pos) hertz
  have start : Settled delay (1.0 / hz) d p τ c := by
    refine ⟨rfl, rfl, 0, rational?_zero, ?_, ?_⟩
    · have := moderate.tolerance_pos
      have := moderate.delay_pos
      linarith
    · have := moderate.period_pos
      have := moderate.delay_pos
      linarith
  refine ⟨c, created, fun n => ?_⟩
  exact ((start.after moderate steps passes' known absorbs n).advance moderate steps passes' known
    absorbs).1

end Clock

end Chip8
