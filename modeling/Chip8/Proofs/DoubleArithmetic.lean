import Chip8.Proofs.Rounding

/-! The four operations on doubles, and the double nearest to an integer. A result of a
magnitude that doubles reach is within one unit in its last place of the exact one. The
bound is twice what rounding to nearest allows. -/

set_option autoImplicit false

namespace Chip8.Binary64

open Float.Model Float.Model.UnpackedFloat

theorem near_of_rational? {x : Float} {v : ℚ} (known : rational? x = some v) : Near x v :=
  ⟨v, known, by rw [sub_self, abs_zero]; positivity⟩

theorem apply_cast (s : Sign) (m : Nat) : ((s.apply m : Int) : ℚ) = signed (s == .negative) m := by
  cases s
  · exact Int.cast_neg _
  · rfl

theorem signed_mul (negative : Bool) (p q : ℚ) :
    signed negative (p * q) = signed negative p * q := by
  cases negative
  · rfl
  · exact (neg_mul p q).symm

/-- A mantissa that is written out to a lower exponent stands for the same number. -/
theorem apply_decreaseExponent (s : Sign) (m : Nat) {e target : Int} (lower : target ≤ e) :
    ((s.apply (decreaseExponent m e target).1 : Int) : ℚ) * 2 ^ target =
      signed (s == .negative) (m * 2 ^ e) := by
  have same := shiftLeft_mul_two_zpow m (e - target).toNat e
  have down : e - ((e - target).toNat : Int) = target := by omega
  rw [down] at same
  rw [apply_cast, ← signed_mul]
  exact congrArg _ same

section
variable {u v : UnpackedFloat} {x y : Float} {a b : ℚ}

theorem Exact.neg (known : Exact u a) : Exact u.neg (-a) := by
  cases known with
  | zero s =>
    rw [neg_zero]
    exact .zero (-s)
  | finite s m e positive canonical =>
    have opposite : -signed (s == .negative) ((m : ℚ) * 2 ^ e) =
        signed (-s == .negative) (m * 2 ^ e) := by
      cases s
      · exact neg_neg _
      · rfl
    rw [opposite]
    exact .finite (-s) m e positive canonical

theorem apply_neg (s : Sign) (m : Int) : (-s).apply m = -s.apply m := by
  cases s
  · exact (neg_neg m).symm
  · rfl

theorem unpacked_sub (u v : UnpackedFloat) :
    UnpackedFloat.sub Format.binary64 u v = UnpackedFloat.add Format.binary64 u v.neg := by
  cases u with
  | notANumber => rfl
  | infinity s => cases v <;> rfl
  | zero s => cases v <;> rfl
  | finite s m e positive =>
    cases v with
    | notANumber => rfl
    | infinity t => rfl
    | zero t => rfl
    | finite t n f above =>
      simp only [UnpackedFloat.sub, UnpackedFloat.add, UnpackedFloat.neg]
      rw [apply_neg, sub_eq_add_neg]

theorem Exact.near_add (left : Exact u a) (right : Exact v b) (small : |a + b| < 2 ^ 1023) :
    Near (packed (UnpackedFloat.add Format.binary64 u v)) (a + b) := by
  cases left with
  | zero s =>
    rw [zero_add]
    cases right with
    | zero t =>
      apply near_of_rational?
      cases s <;> cases t <;> exact rational?_packed_zero _
    | finite t n f above canonical =>
      exact near_of_rational? (rational?_packed_finite above canonical)
  | finite s m e positive canonical =>
    cases right with
    | zero t =>
      rw [add_zero]
      exact near_of_rational? (rational?_packed_finite positive canonical)
    | finite t n f above canonical' =>
      have sum := congrArg₂ (· + ·) (apply_decreaseExponent s m (min_le_left e f))
        (apply_decreaseExponent t n (min_le_right e f))
      have least : -1074 ≤ min e f := le_min canonical.le_exponent canonical'.le_exponent
      simp only [← add_mul, ← Int.cast_add] at sum
      rw [← sum] at small ⊢
      exact near_normalize least small

theorem near_add (left : rational? x = some a) (right : rational? y = some b)
    (small : |a + b| < 2 ^ 1023) : Near (x + y) (a + b) :=
  (exact_of_rational? left).near_add (exact_of_rational? right) small

theorem near_sub (left : rational? x = some a) (right : rational? y = some b)
    (small : |a - b| < 2 ^ 1023) : Near (x - y) (a - b) := by
  change Near (packed (UnpackedFloat.sub Format.binary64 x.toModel.unpack y.toModel.unpack)) _
  rw [unpacked_sub]
  rw [sub_eq_add_neg] at small ⊢
  exact (exact_of_rational? left).near_add (exact_of_rational? right).neg small

theorem signed_mul_signed (s t : Sign) (p q : ℚ) :
    signed (s == .negative) p * signed (t == .negative) q =
      signed (s * t == .negative) (p * q) := by
  cases s <;> cases t
  · exact neg_mul_neg p q
  · exact neg_mul p q
  · exact mul_neg p q
  · rfl

theorem signed_div_signed (s t : Sign) (p q : ℚ) :
    signed (s == .negative) p / signed (t == .negative) q =
      signed (s / t == .negative) (p / q) := by
  cases s <;> cases t
  · exact neg_div_neg_eq p q
  · exact neg_div q p
  · exact div_neg p
  · rfl

/-- A product has at least as many bits as the longer factor. -/
theorem product_deep {m n : Nat} {e f : Int} (left : Canonical m e) (right : Canonical n f)
    (positive : 0 < m) (above : 0 < n) : e + f ≤ lastPlace (m * n) (e + f) := by
  rw [lastPlace]
  rcases left.normal with full | bottom
  · have : 52 ≤ (m * n).log2 := by
      rw [Nat.le_log2 (by positivity)]
      exact full.trans (Nat.le_mul_of_pos_right m above)
    omega
  · rcases right.normal with full | bottom'
    · have : 52 ≤ (m * n).log2 := by
        rw [Nat.le_log2 (by positivity)]
        exact full.trans (Nat.le_mul_of_pos_left n positive)
      omega
    · omega

theorem Exact.near_mul (left : Exact u a) (right : Exact v b) (small : |a * b| < 2 ^ 1023)
    (normal : a * b = 0 ∨ 2 ^ (-1022 : Int) ≤ |a * b|) :
    Near (packed (UnpackedFloat.mul Format.binary64 u v)) (a * b) := by
  cases left with
  | zero s =>
    rw [zero_mul]
    apply near_of_rational?
    cases right with
    | zero t => exact rational?_packed_zero _
    | finite t n f above canonical => exact rational?_packed_zero _
  | finite s m e positive canonical =>
    cases right with
    | zero t =>
      rw [mul_zero]
      exact near_of_rational? (rational?_packed_zero _)
    | finite t n f above canonical' =>
      have product : ((m * n : Nat) : ℚ) * 2 ^ (e + f) = m * 2 ^ e * (n * 2 ^ f) := by
        rw [zpow_add₀ two_ne_zero]
        push_cast
        ring
      have positive' : (0 : ℚ) < ((m * n : Nat) : ℚ) * 2 ^ (e + f) :=
        mul_pos (by exact_mod_cast Nat.mul_pos positive above) (two_zpow_pos _)
      rw [signed_mul_signed, ← product] at small normal ⊢
      rw [abs_signed _ positive'.le] at small normal
      have large : 2 ^ (-1022 : Int) ≤ ((m * n : Nat) : ℚ) * 2 ^ (e + f) := by
        refine normal.resolve_left fun zero => ?_
        rw [← abs_eq_zero, abs_signed _ positive'.le] at zero
        exact positive'.ne' zero
      apply near_roundWithAccuracy (Nat.mul_pos positive above)
        (product_deep canonical canonical' positive above) le_rfl _ small (.inl large)
      exact mul_lt_mul_of_pos_right (lt_add_one _) (two_zpow_pos _)

theorem near_mul (left : rational? x = some a) (right : rational? y = some b)
    (small : |a * b| < 2 ^ 1023) (normal : a * b = 0 ∨ 2 ^ (-1022 : Int) ≤ |a * b|) :
    Near (x * y) (a * b) :=
  (exact_of_rational? left).near_mul (exact_of_rational? right) small normal

end

/-- The quotient of mantissas is cut at an exponent low enough for all its bits. -/
theorem divCore_bounds {m n : Nat} (e f : Int) (positive : 0 < m) (above : 0 < n) :
    ∃ quotient target accuracy,
      divCore Format.binary64 m e n f = (quotient, target, accuracy) ∧
      (quotient : ℚ) * 2 ^ target ≤ m * 2 ^ e / (n * 2 ^ f) ∧
      m * 2 ^ e / (n * 2 ^ f) < ((quotient : ℚ) + 1) * 2 ^ target ∧
      (target ≤ -1074 ∨ 2 ^ 52 ≤ quotient) := by
  let target : Int := min (e - f) (max (e - f + m.log2 - n.log2 - 53) (-1074))
  let k := (e - f - target).toNat
  have chosen : min (e - f) (Format.targetExponent Format.binary64
      (totalExponent m e - totalExponent n f)) = target := by
    change min (e - f) (max (m.log2 + 1 + e - (n.log2 + 1 + f) - 53) (-1074)) = target
    simp only [target]
    congr 2
    ring
  have core : divCore Format.binary64 m e n f =
      ((m <<< k) / n, target, accuracyOfFraction ((m <<< k) % n) n) := by
    unfold divCore
    rw [chosen]
  have positive' : (0 : ℚ) < n := by exact_mod_cast above
  have whole : (m : ℚ) * 2 ^ e / (n * 2 ^ f) = (m <<< k : Nat) / n * 2 ^ target := by
    have same := shiftLeft_mul_two_zpow m k (e - f)
    have down : e - f - (k : Int) = target := by omega
    rw [down, zpow_sub₀ two_ne_zero] at same
    rw [div_mul_eq_mul_div, same]
    field_simp
  refine ⟨_, _, _, core, ?_, ?_, ?_⟩
  · rw [whole]
    apply mul_le_mul_of_nonneg_right Nat.cast_div_le (two_zpow_pos _).le
  · rw [whole]
    apply mul_lt_mul_of_pos_right _ (two_zpow_pos _)
    rw [div_lt_iff₀ positive', mul_comm]
    exact_mod_cast Nat.lt_mul_div_succ (m <<< k) above
  · by_cases low : target ≤ -1074
    · exact .inl low
    right
    -- The dividend was shifted until it has 53 bits more than the divisor.
    have bits : n.log2 + 53 ≤ m.log2 + k := by omega
    rw [Nat.le_div_iff_mul_le above]
    calc 2 ^ 52 * n ≤ 2 ^ 52 * 2 ^ (n.log2 + 1) := Nat.mul_le_mul_left _ Nat.lt_log2_self.le
      _ = 2 ^ (n.log2 + 53) := by rw [← Nat.pow_add]; ring_nf
      _ ≤ 2 ^ (m.log2 + k) := Nat.pow_le_pow_right two_pos bits
      _ ≤ m <<< k := by
          rw [← log2_shiftLeft positive]
          apply Nat.log2_self_le
          rw [Nat.shiftLeft_eq]
          positivity

section
variable {u v : UnpackedFloat} {x y : Float} {a b : ℚ}

theorem Exact.near_div (left : Exact u a) (right : Exact v b) (divides : b ≠ 0)
    (small : |a / b| < 2 ^ 1023) (normal : a = 0 ∨ 2 ^ (-1022 : Int) ≤ |a / b|) :
    Near (packed (UnpackedFloat.div Format.binary64 u v)) (a / b) := by
  cases right with
  | zero t => exact absurd rfl divides
  | finite t n f above canonical' =>
    cases left with
    | zero s =>
      rw [zero_div]
      exact near_of_rational? (rational?_packed_zero _)
    | finite s m e positive canonical =>
      have positive' : (0 : ℚ) < m * 2 ^ e / (n * 2 ^ f) := by
        have := two_zpow_pos e
        have := two_zpow_pos f
        positivity
      rw [signed_div_signed] at small normal ⊢
      rw [abs_signed _ positive'.le] at small normal
      have large : 2 ^ (-1022 : Int) ≤ (m : ℚ) * 2 ^ e / (n * 2 ^ f) := by
        refine normal.resolve_left fun zero => ?_
        rw [← abs_eq_zero, abs_signed _ (by have := two_zpow_pos e; positivity)] at zero
        rw [zero, zero_div] at positive'
        exact positive'.false
      obtain ⟨quotient, target, accuracy, core, below, beyond, bits⟩ :=
        divCore_bounds e f positive above
      have some : 0 < quotient := by
        rcases bits with low | full
        · by_contra none
          have none : quotient = 0 := by omega
          rw [none, Nat.cast_zero, zero_add, one_mul] at beyond
          have := (zpow_lt_zpow_iff_right₀ (one_lt_two (α := ℚ))).mp (large.trans_lt beyond)
          omega
        · omega
      change Near (packed (
        let (quotient, target, accuracy) := divCore Format.binary64 m e n f
        roundWithAccuracy Format.binary64 (s / t) quotient target accuracy)) _
      rw [core]
      apply near_roundWithAccuracy some _ below beyond small (.inl large)
      rw [lastPlace]
      rcases bits with low | full
      · omega
      · have := (Nat.le_log2 some.ne').mpr full
        omega

theorem near_div (left : rational? x = some a) (right : rational? y = some b) (divides : b ≠ 0)
    (small : |a / b| < 2 ^ 1023) (normal : a = 0 ∨ 2 ^ (-1022 : Int) ≤ |a / b|) :
    Near (x / y) (a / b) :=
  (exact_of_rational? left).near_div (exact_of_rational? right) divides small normal

end

theorem lt_two_pow {v : ℚ} {j k : Nat} (small : v < 2 ^ j) (more : j ≤ k) : v < 2 ^ k :=
  small.trans_le (pow_le_pow_right₀ one_le_two more)

theorem cast_lt_two_pow {n j k : Nat} (small : n < 2 ^ j) (more : j ≤ k) : (n : ℚ) < 2 ^ k := by
  exact_mod_cast small.trans_le (Nat.pow_le_pow_right two_pos more)

theorem lt_two_pow_of_cast {n j k : Nat} (small : (n : ℚ) < 2 ^ j) (more : j ≤ k) : n < 2 ^ k := by
  have small' : n < 2 ^ j := by exact_mod_cast small
  exact small'.trans_le (Nat.pow_le_pow_right two_pos more)

theorem near_toFloat {n : Nat} (small : n < 2 ^ 53) : Near n.toUInt64.toFloat n := by
  change Near (packed (UnpackedFloat.normalize Format.binary64 ((n.toUInt64.toNat : Nat) : Int) 0
    .positive)) n
  have same : n.toUInt64.toNat = n := Nat.mod_eq_of_lt (by omega)
  rw [same]
  have near := near_normalize (m := n) (e := 0) (z := .positive) (by decide)
    (by
      rw [zpow_zero, mul_one, Int.cast_natCast, Nat.abs_cast]
      exact cast_lt_two_pow small (by decide))
  rwa [zpow_zero, mul_one, Int.cast_natCast] at near

theorem rational?_one : rational? 1.0 = some 1 := by
  have value : value 1.0 = .finite false (2 ^ 52) (-52) := by decide +kernel
  rw [rational?, value, Value.rational?]
  norm_num [signed]

theorem ofNat_short {n : Nat} (short : n < 2 ^ 53) : Float.ofNat n = n.toUInt64.toFloat * 1.0 := by
  have one : (1.0 : Float) = Float.ofBits 0x3FF0000000000000 :=
    Float.toBits_inj.mp (by decide +kernel)
  change Float.ofScientific n false 0 = _
  unfold Float.ofScientific
  rw [dif_pos ⟨short, by decide⟩, one]
  rfl

theorem ofNat_long {n : Nat} (long : 2 ^ 53 ≤ n) :
    Float.ofNat n = packed (UnpackedFloat.roundWithAccuracy Format.binary64 .positive
      (n <<< 53 * 1) (-53 + 0) .exact) := by
  have log : (0 : Int) ≤ n.log2 := Int.natCast_nonneg _
  change Float.ofScientific n false 0 = _
  unfold Float.ofScientific
  rw [dif_neg fun short => Nat.not_lt.mpr long short.1]
  change packed (UnpackedFloat.ofScientific Format.binary64 n 0) = _
  unfold UnpackedFloat.ofScientific
  rw [dif_neg (by omega), if_neg (by decide), if_neg, if_pos le_rfl]
  · rfl
  · change ¬ (0 : Int) < -(2048 + n.log2)
    omega

theorem near_ofNat_short {n : Nat} (short : n < 2 ^ 53) :
    ∃ r, rational? (Float.ofNat n) = some r ∧ |r - n| ≤ n * (3 / 2 ^ 52) := by
  have counted : (0 : ℚ) ≤ n := Nat.cast_nonneg n
  obtain ⟨r, first, low, high⟩ := (near_toFloat short).bounds counted
  have nonneg : 0 ≤ r := by linarith
  have finite : |r * 1| < 2 ^ 1023 := by
    have bound : (n : ℚ) < 2 ^ 53 := cast_lt_two_pow short le_rfl
    rw [mul_one, abs_of_nonneg nonneg]
    exact lt_two_pow (by linarith : r < 2 ^ 54) (by decide)
  have normal : r * 1 = 0 ∨ 2 ^ (-1022 : Int) ≤ |r * 1| := by
    rw [mul_one, abs_of_nonneg nonneg]
    rcases Nat.eq_zero_or_pos n with zero | positive
    · left
      rw [zero] at low high
      norm_num at low high
      exact le_antisymm high low
    · right
      have one : (1 : ℚ) ≤ n := by exact_mod_cast positive
      have least : (2 : ℚ) ^ (-1022 : Int) ≤ 2 ^ (-1 : Int) :=
        zpow_le_zpow_right₀ one_le_two (by decide)
      rw [zpow_neg_one] at least
      linarith
  obtain ⟨q, second, low', high'⟩ :=
    (near_mul first rational?_one finite normal).bounds (by rwa [mul_one])
  rw [ofNat_short short]
  rw [mul_one] at low' high'
  refine ⟨q, second, abs_le.mpr ?_⟩
  constructor <;> linarith

theorem near_ofNat_long {n : Nat} (long : 2 ^ 53 ≤ n) (small : n < 2 ^ 1022) :
    Near (Float.ofNat n) n := by
  have positive : 0 < n := by omega
  have spelled : ((n <<< 53 * 1 : Nat) : ℚ) * 2 ^ (-53 + 0 : Int) = n := by
    have same := shiftLeft_mul_two_zpow n 53 0
    rw [zpow_zero, mul_one] at same
    rw [Nat.mul_one]
    exact same
  have deep : -53 + 0 ≤ lastPlace (n <<< 53 * 1) (-53 + 0) := by
    have log : 53 ≤ n.log2 := (Nat.le_log2 positive.ne').mpr long
    rw [lastPlace, Nat.mul_one, log2_shiftLeft positive]
    omega
  have above : (n : ℚ) < ((n <<< 53 * 1 : Nat) + 1) * 2 ^ (-53 + 0 : Int) := by
    rw [add_mul, spelled, one_mul]
    exact lt_add_of_pos_right _ (two_zpow_pos _)
  rw [ofNat_long long]
  exact near_roundWithAccuracy (s := .positive) (by rw [Nat.shiftLeft_eq]; omega) deep
    spelled.le above (cast_lt_two_pow small (by decide)) (.inr ⟨rfl, spelled.symm, by decide⟩)

/-- An integer of any size below the largest double has one nearby. -/
theorem near_ofNat {n : Nat} (small : n < 2 ^ 1022) :
    ∃ r, rational? (Float.ofNat n) = some r ∧ |r - n| ≤ n * (3 / 2 ^ 52) := by
  by_cases short : n < 2 ^ 53
  · exact near_ofNat_short short
  · obtain ⟨r, known, near⟩ := near_ofNat_long (Nat.not_lt.mp short) small
    have counted : (0 : ℚ) ≤ n := Nat.cast_nonneg n
    rw [Nat.abs_cast] at near
    exact ⟨r, known, near.trans (by linarith)⟩

end Chip8.Binary64
