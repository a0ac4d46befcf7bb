import Chip8.Proofs.DoubleArithmetic

/-! The floor of a quotient of doubles that are not negative. The remainder is exact, so
that what is divided is a multiple of the divisor; its quotient is near to an integer, and
the integer that it is snapped to is the floor or, among the largest, close to it. -/

set_option autoImplicit false

namespace Chip8.Binary64

open Float.Model Float.Model.UnpackedFloat

theorem toBits_ofBits {b : UInt64} (finite : b.toNat / 2 ^ 52 % 2 ^ 11 ≠ 0x7FF) :
    (Float.ofBits b).toBits = b := by
  have number : @isNaNBits Format.binary64 b.toBitVec = false := by
    rw [isNaNBits, decide_eq_false_iff_not]
    rintro ⟨special, -⟩
    apply finite
    have biased := congrArg BitVec.toNat special
    rw [unpackExponent_def, BitVec.extractLsb'_toNat, Nat.shiftRight_eq_div_pow] at biased
    exact biased
  apply UInt64.toBitVec_inj.mp
  change UnpackedFloat.pack Format.binary64 (UnpackedFloat.unpack Format.binary64 b.toBitVec) = _
  rw [pack_unpack, number]
  rfl

theorem value_ofBits (negative : Bool) (biased fraction : Nat) (finite : biased < 0x7FF)
    (below : fraction < 2 ^ 52) :
    value (Float.ofBits (.ofNat
      ((if negative then 0x8000000000000000 else 0) + (biased * leadingBit + fraction)))) =
      .ofParts negative biased fraction := by
  have leading : leadingBit = 2 ^ 52 := rfl
  have sign : (if negative then 0x8000000000000000 else 0) = negative.toNat * 2 ^ 63 := by
    cases negative <;> rfl
  rw [sign, leading]
  let b : UInt64 := .ofNat (negative.toNat * 2 ^ 63 + (biased * 2 ^ 52 + fraction))
  have flag : negative.toNat ≤ 1 := negative.toNat_le
  have whole : b.toNat = negative.toNat * 2 ^ 63 + (biased * 2 ^ 52 + fraction) :=
    UInt64.toNat_ofNat_of_lt' (show _ < 2 ^ 64 by omega)
  have exponent : b.toNat / 2 ^ 52 % 2 ^ 11 = biased := by omega
  have mantissa : b.toNat % 2 ^ 52 = fraction := by omega
  have high : decide (2 ^ 63 ≤ b.toNat) = negative := by
    cases negative
    · exact decide_eq_false (by rw [Bool.toNat_false] at whole; omega)
    · exact decide_eq_true (by rw [Bool.toNat_true] at whole; omega)
  change value (Float.ofBits b) = _
  rw [value_eq_parts, toBits_ofBits (by omega), exponent, mantissa, high]

theorem scale_of_nonneg {m : Nat} {e : Int} (up : 0 ≤ e) : scale m e = m * 2 ^ e.toNat := by
  have none : (-e).toNat = 0 := by omega
  rw [scale, none, Nat.shiftRight_zero, Nat.shiftLeft_eq]

theorem scale_of_nonpos {m : Nat} {e : Int} (down : e ≤ 0) : scale m e = m / 2 ^ (-e).toNat := by
  have none : e.toNat = 0 := by omega
  rw [scale, none, Nat.shiftLeft_zero, Nat.shiftRight_eq_div_pow]

theorem cast_scale {m : Nat} {e : Int} (up : 0 ≤ e) : (scale m e : ℚ) = m * 2 ^ e := by
  rw [scale_of_nonneg up, Nat.cast_mul, Nat.cast_pow, Nat.cast_ofNat, ← zpow_natCast,
    Int.toNat_of_nonneg up]

theorem scale_subnormal {m : Nat} {e : Int} (least : -1074 ≤ e) (small : e + m.log2 < -1022) :
    scale m (e + 1074) < 2 ^ 52 := by
  rw [scale_of_nonneg (by omega)]
  calc m * 2 ^ (e + 1074).toNat < 2 ^ (m.log2 + 1) * 2 ^ (e + 1074).toNat :=
        Nat.mul_lt_mul_of_pos_right Nat.lt_log2_self (Nat.two_pow_pos _)
    _ = 2 ^ (m.log2 + 1 + (e + 1074).toNat) := (Nat.pow_add _ _ _).symm
    _ ≤ 2 ^ 52 := Nat.pow_le_pow_right two_pos (by omega)

theorem scale_normal {m : Nat} (positive : m ≠ 0) (fits : m < 2 ^ 53) :
    2 ^ 52 ≤ scale m (52 - m.log2) ∧ scale m (52 - m.log2) < 2 ^ 53 := by
  have log := log2_le fits
  rw [scale_of_nonneg (by omega)]
  constructor
  · calc 2 ^ 52 = 2 ^ m.log2 * 2 ^ (52 - m.log2 : Int).toNat := by
          rw [← Nat.pow_add]
          congr 1
          omega
      _ ≤ m * 2 ^ (52 - m.log2 : Int).toNat := Nat.mul_le_mul_right _ (Nat.log2_self_le positive)
  · calc m * 2 ^ (52 - m.log2 : Int).toNat < 2 ^ (m.log2 + 1) * 2 ^ (52 - m.log2 : Int).toNat :=
          Nat.mul_lt_mul_of_pos_right Nat.lt_log2_self (Nat.two_pow_pos _)
      _ = 2 ^ 53 := by
          rw [← Nat.pow_add]
          congr 1
          omega

/-- What fits the mantissa and the exponents is assembled without loss. -/
theorem rational?_assemble (negative : Bool) {m : Nat} {e : Int} (fits : m < 2 ^ 53)
    (least : -1074 ≤ e) (top : e + m.log2 ≤ 1023) :
    rational? (assemble negative m e) = some (signed negative (m * 2 ^ e)) := by
  unfold assemble rational?
  dsimp only
  by_cases zero : m = 0
  · have assembled := value_ofBits negative 0 0 (by decide) (by decide)
    rw [Nat.zero_mul, Nat.zero_add] at assembled
    rw [if_pos zero, zero, assembled]
    simp [Value.ofParts, Value.rational?]
  rw [if_neg zero]
  by_cases subnormal : e + m.log2 < -1022
  · have assembled := value_ofBits negative 0 _ (by decide)
      (scale_subnormal least subnormal)
    rw [Nat.zero_mul, Nat.zero_add] at assembled
    rw [if_pos subnormal, assembled]
    change some (signed negative (scale m (e + 1074) * 2 ^ (-1074 : Int))) = _
    rw [cast_scale (by omega), mul_assoc, ← zpow_add₀ two_ne_zero, add_neg_cancel_right]
  · have leading : leadingBit = 2 ^ 52 := rfl
    have log := log2_le fits
    obtain ⟨full, short⟩ := scale_normal zero fits
    let biased := (e + m.log2 + 1023).toNat
    have magnitude : (e + m.log2 + 1022).toNat * leadingBit + scale m (52 - m.log2) =
        biased * leadingBit + (scale m (52 - m.log2) - 2 ^ 52) := by
      have next : biased = (e + m.log2 + 1022).toNat + 1 := by omega
      rw [next, leading]
      omega
    have assembled := value_ofBits negative biased (scale m (52 - m.log2) - 2 ^ 52)
      (by omega) (by omega)
    rw [if_neg subnormal, magnitude, assembled, Value.ofParts, if_neg (by omega),
      if_neg (by omega), leading, Nat.add_sub_cancel' full]
    have exponent : (biased : Int) - 1075 = e - (52 - m.log2) := by omega
    change some (signed negative (scale m (52 - m.log2) * 2 ^ ((biased : Int) - 1075))) = _
    rw [cast_scale (by omega), exponent, mul_assoc, ← zpow_add₀ two_ne_zero, add_sub_cancel]

theorem value_of_nonneg {x : Float} {a : ℚ} (known : rational? x = some a) (nonneg : 0 ≤ a) :
    ∃ negative m e, value x = .finite negative m e ∧ Canonical m e ∧ a = m * 2 ^ e ∧
      (negative = true → m = 0) := by
  cases finite : value x with
  | nan => rw [rational?, finite] at known; cases known
  | infinite negative => rw [rational?, finite] at known; cases known
  | finite negative m e =>
    rw [rational?, finite] at known
    cases known
    refine ⟨negative, m, e, rfl, canonical_of_value finite, ?_⟩
    have magnitude : (0 : ℚ) ≤ m * 2 ^ e := mul_nonneg (Nat.cast_nonneg m) (two_zpow_pos e).le
    -- Zero has a double of either sign.
    cases negative
    · exact ⟨rfl, fun below => absurd below Bool.false_ne_true⟩
    · have zero : (m : ℚ) * 2 ^ e = 0 := le_antisymm (neg_nonneg.mp nonneg) magnitude
      refine ⟨(congrArg _ zero).trans (neg_zero.trans zero.symm), fun _ => ?_⟩
      exact_mod_cast (mul_eq_zero.mp zero).resolve_right (two_zpow_pos e).ne'

theorem floor_mul_two_zpow (m : Nat) (e : Int) : ⌊(m : ℚ) * 2 ^ e⌋ = scale m e := by
  rcases le_total 0 e with up | down
  · rw [← cast_scale up, Int.floor_natCast]
  · obtain ⟨k, rfl⟩ : ∃ k : Nat, e = -(k : Int) := ⟨(-e).toNat, by omega⟩
    rw [scale_of_nonpos down, zpow_neg, zpow_natCast, ← div_eq_mul_inv, neg_neg, Int.toNat_natCast]
    have quotient := Rat.floor_natCast_div_natCast m (2 ^ k)
    push_cast at quotient ⊢
    exact quotient

section
variable {x y : Float} {a b : ℚ}

theorem toInt_of_nonneg (known : rational? x = some a) (nonneg : 0 ≤ a) : toInt x = .ok ⌊a⌋ := by
  obtain ⟨negative, m, e, finite, canonical, rfl, zero⟩ := value_of_nonneg known nonneg
  rw [toInt, finite, floor_mul_two_zpow]
  cases negative with
  | false => rfl
  | true =>
    rw [zero rfl]
    simp [scale]

theorem rational?_floor (known : rational? x = some a) (nonneg : 0 ≤ a) :
    rational? (floor x) = some (⌊a⌋ : ℚ) := by
  obtain ⟨negative, m, e, finite, canonical, rfl, zero⟩ := value_of_nonneg known nonneg
  rw [floor_mul_two_zpow, floor, finite]
  dsimp only
  by_cases up : e ≥ 0
  · rw [if_pos up, known, Int.cast_natCast, cast_scale up]
  · have kept : ¬ (negative = true ∧ ¬ scale (scale m e) (-e) = m) := by
      rintro ⟨below, inexact⟩
      apply inexact
      simp [zero below, scale]
    have whole : scale m e < 2 ^ 53 := by
      rw [scale_of_nonpos (by omega)]
      exact (Nat.div_le_self m _).trans_lt canonical.mantissa_lt
    have log := log2_le whole
    rw [if_neg up, if_neg kept, rational?_assemble negative whole (by decide) (by omega),
      zpow_zero, mul_one, Int.cast_natCast]
    cases negative with
    | false => rfl
    | true => simp [zero rfl, scale, signed]

/-- The remainder is exact: what it leaves has no more bits than the shorter operand. -/
theorem rational?_remainder (left : rational? x = some a) (right : rational? y = some b)
    (nonneg : 0 ≤ a) (positive : 0 < b) :
    rational? (remainder x y) = some (a - ⌊a / b⌋ * b) := by
  obtain ⟨negative, m, p, finite, canonical, rfl, zero⟩ := value_of_nonneg left nonneg
  obtain ⟨negative', n, q, finite', canonical', rfl, -⟩ := value_of_nonneg right positive.le
  have divides : n ≠ 0 := by
    rintro rfl
    simp at positive
  let unit := min p q
  let dividend := scale m (p - unit)
  let divisor := scale n (q - unit)
  have spelled : (m : ℚ) * 2 ^ p = dividend * 2 ^ unit := by
    rw [cast_scale (by omega), mul_assoc, ← zpow_add₀ two_ne_zero, sub_add_cancel]
  have spelled' : (n : ℚ) * 2 ^ q = divisor * 2 ^ unit := by
    rw [cast_scale (by omega), mul_assoc, ← zpow_add₀ two_ne_zero, sub_add_cancel]
  have least : -1074 ≤ unit := le_min canonical.le_exponent canonical'.le_exponent
  have fits : dividend % divisor < 2 ^ 53 := by
    rcases le_total p q with lower | lower
    · have same : dividend = m := by simp [dividend, unit, lower, scale]
      exact (Nat.mod_le _ _).trans_lt (same.trans_lt canonical.mantissa_lt)
    · have same : divisor = n := by simp [divisor, unit, lower, scale]
      rw [same]
      exact (Nat.mod_lt _ (Nat.pos_of_ne_zero divides)).trans canonical'.mantissa_lt
  have log := log2_le fits
  have greatest := canonical.exponent_le
  have whole : ⌊(dividend : ℚ) * 2 ^ unit / (divisor * 2 ^ unit)⌋ = (dividend / divisor : Nat) := by
    rw [mul_div_mul_right _ _ (two_zpow_pos _).ne']
    exact Rat.floor_natCast_div_natCast dividend divisor
  rw [remainder, finite, finite']
  dsimp only
  rw [if_neg divides, rational?_assemble negative fits least (by omega), spelled, spelled', whole]
  cases negative with
  | false =>
    have split : ((dividend % divisor : Nat) : ℚ) + divisor * (dividend / divisor : Nat) =
        dividend := by
      exact_mod_cast Nat.mod_add_div dividend divisor
    rw [← split, Int.cast_natCast]
    refine congrArg some ?_
    change ((dividend % divisor : Nat) : ℚ) * 2 ^ unit = _
    ring
  | true =>
    have none : dividend = 0 := by simp [dividend, zero rfl, scale]
    simp [none, signed]

end

theorem rational?_zero : rational? 0.0 = some 0 := by
  have value : value 0.0 = .finite false 0 (-1074) := by decide +kernel
  rw [rational?, value, Value.rational?]
  norm_num [signed]

theorem rational?_half : rational? 0.5 = some (1 / 2) := by
  have value : value 0.5 = .finite false (2 ^ 52) (-53) := by decide +kernel
  rw [rational?, value, Value.rational?]
  norm_num [signed]

/-- A double close to an integer is snapped to it while the integers are far apart for
doubles, and moves by a few of them when they are not. -/
theorem near_snap {z : Float} {q : ℚ} {k : ℤ} (known : rational? z = some q) (positive : 1 ≤ k)
    (small : (k : ℚ) < 2 ^ 1000) (close : |q - k| ≤ k * (3 / 2 ^ 52)) :
    ∃ t, rational? (if z - floor z > 0.5 then floor z + 1.0 else floor z) = some t ∧
      |t - k| ≤ k / 2 ^ 47 := by
  have one : (1 : ℚ) ≤ k := by exact_mod_cast positive
  obtain ⟨above, below⟩ := abs_le.mp close
  have nonneg : 0 ≤ q := by linarith
  have whole := rational?_floor known nonneg
  have down := Int.floor_le q
  have up := Int.lt_floor_add_one q
  have carried : ((⌊q⌋ : ℤ) : ℚ) + 1 < 2 ^ 1002 := by
    rw [pow_succ, pow_succ]
    refine lt_of_le_of_lt (by linarith : _ ≤ (k : ℚ) * 2 * 2) ?_
    exact mul_lt_mul_of_pos_right (mul_lt_mul_of_pos_right small two_pos) two_pos
  obtain ⟨rest, left, cut, cut'⟩ := (near_sub known whole (by
    rw [abs_of_nonneg (by linarith)]
    exact lt_two_pow (by linarith : q - ⌊q⌋ < 2 ^ 1) (by decide))).bounds (by linarith)
  obtain ⟨next, right, step, step'⟩ := (near_add whole rational?_one (by
    rw [abs_of_nonneg (by linarith)]
    exact lt_two_pow carried (by decide))).bounds (by linarith)
  have snaps : z - floor z > 0.5 ↔ 1 / 2 < rest := lt_iff rational?_half left
  -- With an error below a quarter, the fraction tells on which side of the integer the
  -- double lies. With a greater one, the integer is so large that one more or less is allowed.
  by_cases apart : (k : ℚ) * (3 / 2 ^ 52) < 1 / 4
  · by_cases reached : (k : ℚ) ≤ q
    · have same : ⌊q⌋ = k := Int.floor_eq_iff.mpr ⟨reached, by linarith⟩
      rw [same] at cut'
      have stays : ¬ z - floor z > 0.5 := by
        rw [snaps]
        linarith
      rw [if_neg stays, whole, same]
      refine ⟨_, rfl, ?_⟩
      rw [sub_self, abs_zero]
      positivity
    · have same : ⌊q⌋ = k - 1 := by
        rw [Int.floor_eq_iff]
        push_cast
        constructor <;> linarith
      rw [same] at cut step step'
      push_cast at cut step step'
      have snapped : z - floor z > 0.5 := by
        rw [snaps]
        linarith
      rw [if_pos snapped]
      refine ⟨next, right, abs_le.mpr ?_⟩
      constructor <;> linarith
  · by_cases snapped : z - floor z > 0.5
    · rw [if_pos snapped]
      refine ⟨next, right, abs_le.mpr ?_⟩
      constructor <;> linarith
    · rw [if_neg snapped]
      refine ⟨_, whole, abs_le.mpr ?_⟩
      constructor <;> linarith

section
variable {x y : Float} {a b : ℚ}

theorem floor_div_nonneg (nonneg : 0 ≤ a) (positive : 0 < b) : (0 : ℚ) ≤ ⌊a / b⌋ := by
  exact_mod_cast Int.floor_nonneg.mpr (div_nonneg nonneg positive.le)

/-- What is left without the remainder is a multiple of the divisor, so that its quotient
is as near to an integer as two roundings allow. -/
theorem near_whole_quotient (left : rational? x = some a) (right : rational? y = some b)
    (nonneg : 0 ≤ a) (positive : 0 < b) (small : a < 2 ^ 1000) (few : a / b < 2 ^ 1000) :
    ∃ q, rational? ((x - remainder x y) / y) = some q ∧
      |q - ⌊a / b⌋| ≤ ⌊a / b⌋ * (3 / 2 ^ 52) := by
  have forward := floor_div_nonneg nonneg positive
  have count : (⌊a / b⌋ : ℚ) < 2 ^ 1000 := (Int.floor_le _).trans_lt few
  have under : ⌊a / b⌋ * b ≤ a := (le_div_iff₀ positive).mp (Int.floor_le _)
  have whole : 0 ≤ ⌊a / b⌋ * b := mul_nonneg forward positive.le
  have rest := rational?_remainder left right nonneg positive
  generalize ⌊a / b⌋ = k at *
  have multiple : a - (a - k * b) = k * b := sub_sub_cancel a _
  obtain ⟨d, dividend, low, high⟩ := (near_sub left rest (by
    rw [multiple, abs_of_nonneg whole]
    exact under.trans_lt (lt_two_pow small (by decide)))).bounds (by rwa [multiple])
  rw [multiple] at low high
  have low' : k - k / 2 ^ 52 ≤ d / b := by
    rw [le_div_iff₀ positive]
    linarith
  have high' : d / b ≤ k + k / 2 ^ 52 := by
    rw [div_le_iff₀ positive]
    linarith
  have divided : 0 ≤ d / b := by linarith
  have finite : |d / b| < 2 ^ 1023 := by
    rw [abs_of_nonneg divided]
    have double : d / b ≤ k * 2 := by linarith
    have fits : (k : ℚ) * 2 < 2 ^ 1001 := by
      rw [pow_succ]
      exact mul_lt_mul_of_pos_right count two_pos
    exact double.trans_lt (lt_two_pow fits (by decide))
  have normal : d = 0 ∨ 2 ^ (-1022 : Int) ≤ |d / b| := by
    rcases (Int.cast_nonneg_iff (R := ℚ)).mp forward |>.eq_or_lt with none | some
    · left
      rw [← none] at low high
      norm_num at low high
      exact le_antisymm high low
    · right
      have one : (1 : ℚ) ≤ k := by exact_mod_cast some
      have least : (2 : ℚ) ^ (-1022 : Int) ≤ 2 ^ (-1 : Int) :=
        zpow_le_zpow_right₀ one_le_two (by decide)
      rw [zpow_neg_one] at least
      rw [abs_of_nonneg divided]
      linarith
  obtain ⟨q, quotient, low'', high''⟩ :=
    (near_div dividend right positive.ne' finite normal).bounds divided
  refine ⟨q, quotient, abs_le.mpr ?_⟩
  constructor <;> linarith

/-- The quotient of nonnegative doubles, rounded to an integer. -/
theorem near_floorQuotient (left : rational? x = some a) (right : rational? y = some b)
    (nonneg : 0 ≤ a) (positive : 0 < b) (small : a < 2 ^ 1000) (few : a / b < 2 ^ 1000) :
    ∃ t, rational? (floorQuotient x y) = some t ∧ |t - ⌊a / b⌋| ≤ ⌊a / b⌋ / 2 ^ 47 := by
  obtain ⟨q, quotient, close⟩ := near_whole_quotient left right nonneg positive small few
  have forward := floor_div_nonneg nonneg positive
  have under : (⌊a / b⌋ : ℚ) * b ≤ a := (le_div_iff₀ positive).mp (Int.floor_le _)
  have rest := rational?_remainder left right nonneg positive
  have ahead : ¬ y < 0.0 := by
    rw [lt_iff right rational?_zero]
    exact positive.not_gt
  have ahead' : ¬ remainder x y < 0.0 := by
    rw [lt_iff rest rational?_zero]
    linarith
  have bounds := abs_le.mp close
  unfold floorQuotient
  simp only [ahead, ahead', decide_false, bne_self_eq_false, Bool.and_false, Bool.false_eq_true,
    if_false]
  by_cases zero : ((x - remainder x y) / y == 0.0) = true
  · rw [if_pos zero]
    rw [beq_iff quotient rational?_zero] at zero
    have none : (⌊a / b⌋ : ℚ) = 0 := by linarith
    exact ⟨0, rational?_zero, by rw [none]; norm_num⟩
  · rw [if_neg zero]
    rw [beq_iff quotient rational?_zero] at zero
    apply near_snap quotient _ ((Int.floor_le _).trans_lt few) close
    by_contra below
    have none : ⌊a / b⌋ = 0 := le_antisymm (by omega) (by exact_mod_cast forward)
    apply zero
    rw [none] at bounds
    norm_num at bounds
    linarith

end

end Chip8.Binary64
