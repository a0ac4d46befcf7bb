import Chip8.Proofs.Doubles

/-! Rounding in the model of doubles. A mantissa is cut at the last place that fits, and
the cut mantissa or its successor is kept. Either is within one unit there, which is all
that is said of the result: ties and directions do not matter. -/

set_option autoImplicit false

namespace Chip8.Binary64

open Float.Model Float.Model.UnpackedFloat

/-- A double that stands for a number up to one unit in the last place. -/
def Near (x : Float) (v : ℚ) : Prop := ∃ r, rational? x = some r ∧ |r - v| ≤ |v| / 2 ^ 52

theorem Near.bounds {x : Float} {v : ℚ} (near : Near x v) (nonneg : 0 ≤ v) :
    ∃ r, rational? x = some r ∧ v - v / 2 ^ 52 ≤ r ∧ r ≤ v + v / 2 ^ 52 := by
  obtain ⟨r, known, error⟩ := near
  rw [abs_of_nonneg nonneg, abs_le] at error
  exact ⟨r, known, by linarith, by linarith⟩

/-- The least exponent at which a number fits a mantissa. -/
def lastPlace (m : Nat) (e : Int) : Int := max (e + m.log2 - 52) (-1074)

theorem log2_le {m : Nat} (small : m < 2 ^ 53) : m.log2 ≤ 52 := by
  by_cases zero : m = 0
  · rw [zero]
    decide
  · exact Nat.le_of_lt_succ ((Nat.log2_lt zero).mpr small)

theorem targetExponent_eq (m : Nat) (e : Int) :
    Format.targetExponent Format.binary64 (totalExponent m e) = lastPlace m e := by
  change max (m.log2 + 1 + e - 53) (-1074) = _
  rw [lastPlace]
  congr 1
  ring

theorem mantissa_shiftRight (em : ExtendedMantissa) (k : Nat) :
    (em >>> k).mantissa = em.mantissa / 2 ^ k := by
  induction k with
  | zero => exact (Nat.div_one _).symm
  | succ k ih =>
    change (em >>> k).mantissa / 2 = _
    rw [ih, Nat.div_div_eq_div_mul, ← Nat.pow_succ]

theorem mantissa_ofMantissaAndAccuracy (m : Nat) (a : Accuracy) :
    (ExtendedMantissa.ofMantissaAndAccuracy m a).mantissa = m := by
  rcases a with _ | _ | _ | _ <;> rfl

theorem roundedMantissa_bounds (em : ExtendedMantissa) :
    em.mantissa ≤ em.roundedMantissa ∧ em.roundedMantissa ≤ em.mantissa + 1 := by
  obtain ⟨m, round, sticky⟩ := em
  have carry : m % 2 ≤ 1 := Nat.le_of_lt_succ (Nat.mod_lt m two_pos)
  cases round <;> cases sticky
  · exact ⟨le_rfl, Nat.le_succ m⟩
  · exact ⟨le_rfl, Nat.le_succ m⟩
  · exact ⟨Nat.le_add_right m _, Nat.add_le_add_left carry m⟩
  · exact ⟨Nat.le_succ m, le_rfl⟩

section
variable {s : Sign} {m : Nat} {e : Int} {a : Accuracy}

theorem shifted_exponent (deep : e ≤ lastPlace m e) :
    (shiftToTargetExponent Format.binary64 m e a).2 = lastPlace m e := by
  change e + ((Format.targetExponent Format.binary64 (totalExponent m e) - e).toNat : Int) = _
  rw [targetExponent_eq]
  omega

theorem shifted_mantissa :
    (shiftToTargetExponent Format.binary64 m e a).1.mantissa =
      m / 2 ^ (lastPlace m e - e).toNat := by
  change (ExtendedMantissa.ofMantissaAndAccuracy m a >>>
    (Format.targetExponent Format.binary64 (totalExponent m e) - e).toNat).mantissa = _
  rw [mantissa_shiftRight, mantissa_ofMantissaAndAccuracy, targetExponent_eq]

theorem shifted_in_place (there : lastPlace m e ≤ e) :
    shiftToTargetExponent Format.binary64 m e .exact = (⟨m, false, false⟩, e) := by
  have none : (Format.targetExponent Format.binary64 (totalExponent m e) - e).toNat = 0 := by
    rw [targetExponent_eq]
    omega
  unfold shiftToTargetExponent shiftToExponent
  dsimp only
  rw [none]
  simp only [Nat.cast_zero, add_zero]
  rfl

theorem shifted_carry (least : -1074 ≤ e) :
    shiftToTargetExponent Format.binary64 (2 ^ 53) e .exact = (⟨2 ^ 52, false, false⟩, e + 1) := by
  have one : (Format.targetExponent Format.binary64 (totalExponent (2 ^ 53) e) - e).toNat = 1 := by
    rw [targetExponent_eq, lastPlace, Nat.log2_two_pow]
    omega
  unfold shiftToTargetExponent shiftToExponent
  dsimp only
  rw [one]
  rfl

theorem lastPlace_le_of_lt (small : m < 2 ^ 53) (least : -1074 ≤ e) : lastPlace m e ≤ e := by
  have log := log2_le small
  rw [lastPlace]
  omega

theorem quotient_lt (m : Nat) (e : Int) : m / 2 ^ (lastPlace m e - e).toNat < 2 ^ 53 := by
  rw [Nat.div_lt_iff_lt_mul (Nat.two_pow_pos _), ← Nat.pow_add]
  refine Nat.lt_log2_self.trans_le (Nat.pow_le_pow_right two_pos ?_)
  rw [lastPlace]
  omega

theorem le_quotient (positive : 0 < m) (deep : e ≤ lastPlace m e)
    (normal : -1074 < lastPlace m e) : 2 ^ 52 ≤ m / 2 ^ (lastPlace m e - e).toNat := by
  rw [Nat.le_div_iff_mul_le (Nat.two_pow_pos _), ← Nat.pow_add]
  refine le_trans (Nat.pow_le_pow_right two_pos ?_) (Nat.log2_self_le positive.ne')
  rw [lastPlace] at *
  omega

/-- What rounding makes of a mantissa: its quotient at the last place, or one more. -/
theorem rational?_roundWithAccuracy (positive : 0 < m) (deep : e ≤ lastPlace m e)
    (small : e + m.log2 ≤ 1022) :
    ∃ rounded : Nat, m / 2 ^ (lastPlace m e - e).toNat ≤ rounded ∧
      rounded ≤ m / 2 ^ (lastPlace m e - e).toNat + 1 ∧
      (a = .exact → lastPlace m e ≤ e → rounded = m) ∧
      rational? (packed (roundWithAccuracy Format.binary64 s m e a)) =
        some (signed (s == .negative) (rounded * 2 ^ lastPlace m e)) := by
  have least : -1074 ≤ lastPlace m e := le_max_right _ _
  have greatest : lastPlace m e ≤ 970 := by
    rw [lastPlace]
    omega
  have below := quotient_lt m e
  let em := (shiftToTargetExponent Format.binary64 m e a).1
  obtain ⟨atLeast, atMost⟩ := roundedMantissa_bounds em
  have mantissa : em.mantissa = m / 2 ^ (lastPlace m e - e).toNat := shifted_mantissa
  have shifted : shiftToTargetExponent Format.binary64 m e a = (em, lastPlace m e) :=
    Prod.ext rfl (shifted_exponent deep)
  rw [mantissa] at atLeast atMost
  refine ⟨em.roundedMantissa, atLeast, atMost, ?_, ?_⟩
  · rintro rfl there
    have same : em = ⟨m, false, false⟩ := congrArg Prod.fst (shifted_in_place there)
    rw [same]
    rfl
  have rounds : roundWithAccuracy Format.binary64 s m e a =
      let last := shiftToTargetExponent Format.binary64 em.roundedMantissa (lastPlace m e) .exact
      if h : last.1.mantissa = 0 then .zero s
      else .finite s last.1.mantissa last.2 (Nat.pos_of_ne_zero h) := by
    rw [roundWithAccuracy, shifted]
  rw [rounds]
  generalize em.roundedMantissa = rounded at *
  -- Rounding up can carry into one more bit.
  by_cases carries : rounded = 2 ^ 53
  · rw [carries, shifted_carry least]
    dsimp only
    rw [dif_neg (by decide), rational?_packed_finite _
      ⟨by decide, by omega, by omega, .inl le_rfl⟩]
    congr 2
    push_cast
    rw [zpow_add₀ two_ne_zero]
    ring
  · have fits : rounded < 2 ^ 53 := by omega
    rw [shifted_in_place (lastPlace_le_of_lt fits least)]
    dsimp only
    by_cases zero : rounded = 0
    · rw [dif_pos zero, rational?_packed_zero, zero]
      simp [signed]
    · have normal : 2 ^ 52 ≤ rounded ∨ lastPlace m e = -1074 := by
        rcases least.eq_or_lt with bottom | above
        · exact .inr bottom.symm
        · exact .inl ((le_quotient positive deep above).trans atLeast)
      rw [dif_neg zero, rational?_packed_finite _ ⟨fits, least, by omega, normal⟩]

theorem two_zpow_log2_le (positive : 0 < m) : (2 : ℚ) ^ (e + m.log2) ≤ m * 2 ^ e := by
  rw [zpow_add₀ two_ne_zero, mul_comm, zpow_natCast]
  apply mul_le_mul_of_nonneg_right _ (two_zpow_pos e).le
  exact_mod_cast Nat.log2_self_le positive.ne'

theorem lt_two_zpow_log2 : ((m : ℚ) + 1) * 2 ^ e ≤ 2 ^ (e + m.log2 + 1) := by
  rw [add_assoc, zpow_add₀ two_ne_zero, mul_comm]
  apply mul_le_mul_of_nonneg_left _ (two_zpow_pos e).le
  have next : m + 1 ≤ 2 ^ (m.log2 + 1) := Nat.lt_log2_self
  rw [← Nat.cast_succ, ← Nat.cast_succ, zpow_natCast]
  exact_mod_cast next

theorem signed_sub_signed (negative : Bool) (p q : ℚ) :
    |signed negative p - signed negative q| = |p - q| := by
  cases negative
  · rfl
  · exact (congrArg _ (neg_sub_neg p q)).trans (abs_sub_comm q p)

/-- The quotient at the last place and its successor enclose what the mantissa stands
for, so that either is within one unit there. -/
theorem abs_rounded_sub_le {rounded : Nat} {v : ℚ} (deep : e ≤ lastPlace m e)
    (atLeast : m / 2 ^ (lastPlace m e - e).toNat ≤ rounded)
    (atMost : rounded ≤ m / 2 ^ (lastPlace m e - e).toNat + 1)
    (below : m * 2 ^ e ≤ v) (above : v < (m + 1) * 2 ^ e) :
    |rounded * 2 ^ lastPlace m e - v| ≤ (2 : ℚ) ^ lastPlace m e := by
  let k := (lastPlace m e - e).toNat
  let q := m / 2 ^ k
  have unit : (2 : ℚ) ^ lastPlace m e = 2 ^ k * 2 ^ e := by
    rw [← zpow_natCast, ← zpow_add₀ two_ne_zero]
    congr 1
    omega
  have start : (q : ℚ) * 2 ^ lastPlace m e ≤ v := by
    refine le_trans ?_ below
    rw [unit, ← mul_assoc]
    apply mul_le_mul_of_nonneg_right _ (two_zpow_pos e).le
    exact_mod_cast Nat.div_mul_le_self m (2 ^ k)
  have stop : v ≤ ((q : ℚ) + 1) * 2 ^ lastPlace m e := by
    refine above.le.trans ?_
    rw [unit, ← mul_assoc]
    apply mul_le_mul_of_nonneg_right _ (two_zpow_pos e).le
    rw [mul_comm]
    exact_mod_cast Nat.lt_mul_div_succ m (Nat.two_pow_pos k)
  have left : (q : ℚ) * 2 ^ lastPlace m e ≤ rounded * 2 ^ lastPlace m e :=
    mul_le_mul_of_nonneg_right (by exact_mod_cast atLeast) (two_zpow_pos _).le
  have right : (rounded : ℚ) * 2 ^ lastPlace m e ≤ (q + 1) * 2 ^ lastPlace m e :=
    mul_le_mul_of_nonneg_right (by exact_mod_cast atMost) (two_zpow_pos _).le
  rw [abs_le]
  constructor <;> linarith

/-- A number of at least the least normal magnitude is rounded to within one unit in its
last place, and so is one that the mantissa spells exactly. -/
theorem near_roundWithAccuracy {v : ℚ} (positive : 0 < m) (deep : e ≤ lastPlace m e)
    (below : m * 2 ^ e ≤ v) (above : v < (m + 1) * 2 ^ e) (small : v < 2 ^ 1023)
    (precise : 2 ^ (-1022 : Int) ≤ v ∨ a = .exact ∧ v = m * 2 ^ e ∧ -1074 ≤ e) :
    Near (packed (roundWithAccuracy Format.binary64 s m e a)) (signed (s == .negative) v) := by
  have lead := (two_zpow_log2_le (e := e) positive).trans below
  have top : e + m.log2 ≤ 1022 := by
    have := (zpow_lt_zpow_iff_right₀ (one_lt_two (α := ℚ))).mp
      (lead.trans_lt (small.trans_eq (zpow_natCast 2 1023).symm))
    omega
  obtain ⟨rounded, atLeast, atMost, exactly, result⟩ :=
    rational?_roundWithAccuracy (s := s) (a := a) positive deep top
  have error := abs_rounded_sub_le deep atLeast atMost below above
  have nonneg : 0 ≤ v := (two_zpow_pos _).le.trans lead
  refine ⟨_, result, ?_⟩
  rw [signed_sub_signed, abs_signed _ nonneg]
  have full (normal : lastPlace m e = e + m.log2 - 52) :
      |rounded * 2 ^ lastPlace m e - v| ≤ v / 2 ^ 52 := by
    refine error.trans ?_
    rw [normal, zpow_sub₀ two_ne_zero]
    exact div_le_div_of_nonneg_right lead (by norm_num)
  rcases precise with large | ⟨rfl, spelled, least⟩
  · apply full
    have := (zpow_lt_zpow_iff_right₀ (one_lt_two (α := ℚ))).mp
      (large.trans_lt (above.trans_le lt_two_zpow_log2))
    rw [lastPlace]
    omega
  · by_cases there : lastPlace m e ≤ e
    · rw [exactly rfl there, spelled, le_antisymm there deep, sub_self, abs_zero]
      positivity
    · apply full
      rw [lastPlace] at *
      omega

theorem log2_shiftLeft (positive : 0 < m) (k : Nat) : (m <<< k).log2 = m.log2 + k := by
  rw [Nat.shiftLeft_eq, Nat.log2_eq_iff (by positivity)]
  constructor
  · rw [Nat.pow_add]
    exact Nat.mul_le_mul_right _ (Nat.log2_self_le positive.ne')
  · rw [Nat.add_right_comm, Nat.pow_add]
    exact Nat.mul_lt_mul_of_pos_right Nat.lt_log2_self (Nat.two_pow_pos k)

theorem shiftLeft_mul_two_zpow (m k : Nat) (e : Int) :
    ((m <<< k : Nat) : ℚ) * 2 ^ (e - k) = m * 2 ^ e := by
  rw [Nat.shiftLeft_eq, Nat.cast_mul, Nat.cast_pow, Nat.cast_ofNat, mul_assoc, ← zpow_natCast,
    ← zpow_add₀ two_ne_zero, add_sub_cancel]

theorem near_round (positive : 0 < m) (least : -1074 ≤ e) (small : (m : ℚ) * 2 ^ e < 2 ^ 1023) :
    Near (packed (UnpackedFloat.round Format.binary64 s m e))
      (signed (s == .negative) (m * 2 ^ e)) := by
  -- A short mantissa is first written out to its last place, where it is kept as it is.
  let k := (e - lastPlace m e).toNat
  have rounds : UnpackedFloat.round Format.binary64 s m e =
      roundWithAccuracy Format.binary64 s (m <<< k) (e - k) .exact := by
    unfold UnpackedFloat.round decreaseExponent
    rw [targetExponent_eq]
  have lead : 0 < m <<< k := by
    rw [Nat.shiftLeft_eq]
    positivity
  have same := shiftLeft_mul_two_zpow m k e
  have log : lastPlace (m <<< k) (e - k) = lastPlace m e := by
    rw [lastPlace, lastPlace, log2_shiftLeft positive]
    congr 1
    push_cast
    ring
  have bottom : -1074 ≤ lastPlace m e := le_max_right _ _
  rw [rounds, ← same]
  apply near_roundWithAccuracy lead _ le_rfl _ (same.trans_lt small)
  · exact .inr ⟨rfl, rfl, by omega⟩
  · rw [log]
    omega
  · exact mul_lt_mul_of_pos_right (lt_add_one _) (two_zpow_pos _)

theorem near_normalize {m : Int} {z : Sign} (least : -1074 ≤ e)
    (small : |(m : ℚ) * 2 ^ e| < 2 ^ 1023) :
    Near (packed (UnpackedFloat.normalize Format.binary64 m e z)) (m * 2 ^ e) := by
  unfold UnpackedFloat.normalize
  rw [abs_mul, abs_of_pos (two_zpow_pos e)] at small
  rcases lt_trichotomy m 0 with below | rfl | above
  · have magnitude : (((-m).toNat : ℕ) : ℚ) = -m := by
      have := Int.toNat_of_nonneg (neg_nonneg.mpr below.le)
      exact_mod_cast this
    have negative : |(m : ℚ)| = -m := abs_of_neg (by exact_mod_cast below)
    rw [compare_lt_iff_lt.mpr below]
    have near := near_round (s := .negative) (m := (-m).toNat) (by omega) least
      (by rwa [magnitude, ← negative])
    rw [magnitude] at near
    simpa [signed] using near
  · refine ⟨0, ?_, by simp⟩
    rw [compare_eq_iff_eq.mpr rfl]
    exact rational?_packed_zero z
  · have magnitude : ((m.toNat : ℕ) : ℚ) = m := by
      have := Int.toNat_of_nonneg above.le
      exact_mod_cast this
    have positive : |(m : ℚ)| = m := abs_of_pos (by exact_mod_cast above)
    rw [compare_gt_iff_gt.mpr above]
    have near := near_round (s := .positive) (m := m.toNat) (by omega) least
      (by rwa [magnitude, ← positive])
    rw [magnitude] at near
    simpa [signed] using near
end

end Chip8.Binary64
