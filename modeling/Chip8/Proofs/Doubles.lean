import Chip8.Binary64
import Mathlib

/-! The numbers that doubles stand for. A double is read from its bits, and the logical
model of its arithmetic takes it apart in its own way; both readings agree, so that a
finite double has one rational number and compares as that number does. -/

set_option autoImplicit false

namespace Chip8.Binary64

open Float.Model Float.Model.UnpackedFloat

/-- What the three parts of a double say. -/
def Value.ofParts (negative : Bool) (biased fraction : Nat) : Value :=
  if biased = 0x7FF then
    if fraction = 0 then .infinite negative else .nan
  else if biased = 0 then .finite negative fraction (-1074)
  else .finite negative (leadingBit + fraction) ((biased : Int) - 1075)

/-- The same, of a double that the model has taken apart. -/
def Value.ofUnpacked : UnpackedFloat → Value
  | .notANumber => .nan
  | .infinity s => .infinite (s == .negative)
  | .zero s => .finite (s == .negative) 0 (-1074)
  | .finite s m e _ => .finite (s == .negative) m e

abbrev exponentBits (b : BitVec 64) : BitVec 11 := @unpackExponent Format.binary64 b
abbrev fractionBits (b : BitVec 64) : BitVec 52 := @unpackMantissa Format.binary64 b
abbrev signBit (b : BitVec 64) : BitVec 1 := @unpackSign Format.binary64 b

theorem value_eq_parts (x : Float) :
    value x = .ofParts (decide (2 ^ 63 ≤ x.toBits.toNat)) (x.toBits.toNat / 2 ^ 52 % 2 ^ 11)
      (x.toBits.toNat % 2 ^ 52) := by
  have biased : ((x.toBits >>> 52) &&& 0x7FF).toNat = x.toBits.toNat / 2 ^ 52 % 2 ^ 11 := by
    rw [UInt64.toNat_and, UInt64.toNat_shiftRight]
    change (x.toBits.toNat >>> 52) &&& (2 ^ 11 - 1) = _
    rw [Nat.and_two_pow_sub_one_eq_mod, Nat.shiftRight_eq_div_pow]
  have fraction : (x.toBits &&& 0xFFFFFFFFFFFFF).toNat = x.toBits.toNat % 2 ^ 52 := by
    rw [UInt64.toNat_and]
    change x.toBits.toNat &&& (2 ^ 52 - 1) = _
    rw [Nat.and_two_pow_sub_one_eq_mod]
  have sign : negative x = decide (2 ^ 63 ≤ x.toBits.toNat) := by
    have bound := x.toBits.toNat_lt
    have shifted : (x.toBits >>> 63).toNat = x.toBits.toNat / 2 ^ 63 := by
      rw [UInt64.toNat_shiftRight]
      change x.toBits.toNat >>> 63 = _
      rw [Nat.shiftRight_eq_div_pow]
    rw [negative, Bool.eq_iff_iff, beq_iff_eq, ← UInt64.toNat_inj, shifted, decide_eq_true_iff]
    change _ = 1 ↔ _
    omega
  simp only [value, biased, fraction, sign, Value.ofParts]

theorem ofUnpacked_unpack (b : BitVec 64) :
    Value.ofUnpacked (UnpackedFloat.unpack Format.binary64 b) =
      .ofParts (Sign.ofBitVec (signBit b) == .negative) (exponentBits b).toNat
        (fractionBits b).toNat := by
  have special : exponentBits b = -1#11 ↔ (exponentBits b).toNat = 0x7FF := by
    rw [← BitVec.toNat_inj]
    rfl
  have least : exponentBits b = 0#11 ↔ (exponentBits b).toNat = 0 := by
    rw [← BitVec.toNat_inj]
    rfl
  have none : fractionBits b = 0#52 ↔ (fractionBits b).toNat = 0 := by
    rw [← BitVec.toNat_inj]
    rfl
  unfold UnpackedFloat.unpack Value.ofParts
  dsimp only
  by_cases top : exponentBits b = -1#11
  · rw [if_pos top, if_pos (special.mp top)]
    by_cases empty : fractionBits b = 0#52
    · rw [if_pos empty, if_pos (none.mp empty)]
      rfl
    · rw [if_neg empty, if_neg (mt none.mpr empty)]
      rfl
  · rw [if_neg top, if_neg (mt special.mpr top)]
    by_cases bottom : exponentBits b = 0#11
    · rw [if_pos bottom, if_pos (least.mp bottom)]
      by_cases empty : fractionBits b = 0#52
      · rw [dif_pos empty, none.mp empty]
        rfl
      · rw [dif_neg empty]
        simp only [Value.ofUnpacked, least.mp bottom]
        rfl
    · rw [if_neg bottom, if_neg (mt least.mpr bottom)]
      have leading : (1#1 ++ fractionBits b).toNat = leadingBit + (fractionBits b).toNat := by
        rw [BitVec.toNat_append, ← Nat.shiftLeft_add_eq_or_of_lt (BitVec.isLt _)]
        rfl
      simp only [Value.ofUnpacked, leading]
      rfl

theorem value_eq_unpack (x : Float) : value x = .ofUnpacked x.toModel.unpack := by
  let b : BitVec 64 := x.toBits.toBitVec
  have bound : b.toNat < 2 ^ 64 := b.isLt
  have biased : (exponentBits b).toNat = b.toNat / 2 ^ 52 % 2 ^ 11 := by
    rw [exponentBits, unpackExponent_def, BitVec.extractLsb'_toNat, Nat.shiftRight_eq_div_pow]
  have fraction : (fractionBits b).toNat = b.toNat % 2 ^ 52 := by
    rw [fractionBits, unpackMantissa_def, BitVec.extractLsb'_toNat, Nat.shiftRight_zero]
  have bit : (signBit b).toNat = b.toNat / 2 ^ 63 := by
    rw [signBit, unpackSign_def, BitVec.extractLsb'_toNat, Nat.shiftRight_eq_div_pow]
    change b.toNat / 2 ^ 63 % 2 ^ 1 = _
    omega
  have clear : signBit b = 0#1 ↔ b.toNat < 2 ^ 63 := by
    rw [← BitVec.toNat_inj, bit]
    change _ = 0 ↔ _
    omega
  have sign : (Sign.ofBitVec (signBit b) == .negative) = decide (2 ^ 63 ≤ b.toNat) := by
    by_cases high : 2 ^ 63 ≤ b.toNat
    · rw [Sign.ofBitVec, if_neg (mt clear.mp (Nat.not_lt.mpr high)), decide_eq_true high]
      rfl
    · rw [Sign.ofBitVec, if_pos (clear.mpr (Nat.not_le.mp high)), decide_eq_false high]
      rfl
  rw [value_eq_parts]
  exact ((ofUnpacked_unpack b).trans (by rw [sign, biased, fraction]; rfl)).symm

/-- The bounds within which every number has one mantissa and one exponent. -/
structure Canonical (mantissa : Nat) (exponent : Int) : Prop where
  mantissa_lt : mantissa < 2 ^ 53
  le_exponent : -1074 ≤ exponent
  exponent_le : exponent ≤ 971
  normal : 2 ^ 52 ≤ mantissa ∨ exponent = -1074

theorem canonical_of_value {x : Float} {negative : Bool} {mantissa : Nat} {exponent : Int}
    (finite : value x = .finite negative mantissa exponent) : Canonical mantissa exponent := by
  have biased : x.toBits.toNat / 2 ^ 52 % 2 ^ 11 < 2 ^ 11 := Nat.mod_lt _ (by decide)
  have fraction : x.toBits.toNat % 2 ^ 52 < 2 ^ 52 := Nat.mod_lt _ (by decide)
  have leading : leadingBit = 2 ^ 52 := rfl
  rw [value_eq_parts] at finite
  generalize x.toBits.toNat / 2 ^ 52 % 2 ^ 11 = biased at *
  generalize x.toBits.toNat % 2 ^ 52 = fraction at *
  unfold Value.ofParts at finite
  split at finite
  · split at finite <;> cases finite
  · split at finite
    · cases finite
      exact ⟨by omega, by omega, by omega, .inr rfl⟩
    · cases finite
      exact ⟨by omega, by omega, by omega, .inl (by omega)⟩

/-- A double from its model. -/
abbrev packed (u : UnpackedFloat) : Float := ⟨Float.Model.pack u⟩

theorem value_packed_components {u : UnpackedFloat} (s : Sign) (biased fraction : Nat)
    (within : biased < 2 ^ 11) (below : fraction < 2 ^ 52)
    (packs : UnpackedFloat.pack Format.binary64 u =
      packComponents Format.binary64 s (BitVec.ofNat 11 biased) (BitVec.ofNat 52 fraction)) :
    value (packed u) = .ofParts (s == .negative) biased fraction := by
  have exponent : (BitVec.ofNat 11 biased).toNat = biased := by
    rw [BitVec.toNat_ofNat, Nat.mod_eq_of_lt within]
  have mantissa : (BitVec.ofNat 52 fraction).toNat = fraction := by
    rw [BitVec.toNat_ofNat, Nat.mod_eq_of_lt below]
  rw [value_eq_unpack]
  change Value.ofUnpacked (UnpackedFloat.unpack Format.binary64
    (UnpackedFloat.pack Format.binary64 u)) = _
  rw [packs]
  refine (ofUnpacked_unpack _).trans ?_
  unfold signBit exponentBits fractionBits
  rw [unpackSign_packComponents, unpackExponent_packComponents, unpackMantissa_packComponents,
    Sign.ofBitVec_toBitVec]
  exact congrArg₂ _ exponent mantissa

theorem pack_finite {s : Sign} {m : Nat} {e : Int} (positive : 0 < m) :
    UnpackedFloat.pack Format.binary64 (.finite s m e positive) =
      if 0x7FF ≤ (e + 1075).toNat then packedInfinity Format.binary64 s
      else packComponents Format.binary64 s
        (BitVec.ofNat 11 (if m.log2 = 52 then (e + 1075).toNat else 0)) (BitVec.ofNat 52 m) := by
  have biased : e + (Format.exponentBias Format.binary64 : Int) +
      (Format.mantissaBitsWithoutImplicit Format.binary64 : Int) = e + 1075 := by
    change e + 1023 + 52 = e + 1075
    omega
  have top : 2 ^ Format.exponentBits Format.binary64 ≤ (e + 1075).toNat + 1 ↔
      0x7FF ≤ (e + 1075).toNat := by
    change 2048 ≤ _ ↔ _
    omega
  have full : m.log2 + 1 = Format.mantissaBits Format.binary64 ↔ m.log2 = 52 := by
    change _ = 53 ↔ _
    omega
  simp only [UnpackedFloat.pack, biased, top, full]
  split
  · rfl
  · split <;> rfl

theorem value_packed_finite {s : Sign} {m : Nat} {e : Int} (positive : 0 < m)
    (canonical : Canonical m e) :
    value (packed (.finite s m e positive)) = .finite (s == .negative) m e := by
  obtain ⟨below, least, greatest, normal⟩ := canonical
  have leading : leadingBit = 2 ^ 52 := rfl
  have packs := pack_finite (s := s) (e := e) positive
  rw [if_neg (by omega)] at packs
  -- A leading bit is not written, but told by the exponent.
  by_cases full : 2 ^ 52 ≤ m
  · have log : m.log2 = 52 := (Nat.log2_eq_iff (Nat.ne_of_gt positive)).mpr ⟨full, below⟩
    have same : BitVec.ofNat 52 m = BitVec.ofNat 52 (m - 2 ^ 52) := by
      apply BitVec.eq_of_toNat_eq
      rw [BitVec.toNat_ofNat, BitVec.toNat_ofNat]
      omega
    rw [if_pos log, same] at packs
    rw [value_packed_components s _ _ (by omega) (by omega) packs, Value.ofParts,
      if_neg (by omega), if_neg (by omega)]
    have mantissa : leadingBit + (m - 2 ^ 52) = m := by omega
    have exponent : ((e + 1075).toNat : Int) - 1075 = e := by omega
    rw [mantissa, exponent]
  · have log : m.log2 ≠ 52 := by
      have := (Nat.log2_lt (Nat.ne_of_gt positive)).mpr (Nat.not_le.mp full)
      omega
    rw [if_neg log] at packs
    rw [value_packed_components s _ _ (by omega) (by omega) packs, Value.ofParts,
      if_neg (by omega), if_pos rfl, normal.resolve_left full]

theorem value_packed_zero (s : Sign) :
    value (packed (.zero s)) = .finite (s == .negative) 0 (-1074) := by
  cases s <;> rfl

/-- A magnitude with a sign. -/
def signed (negative : Bool) (q : ℚ) : ℚ := if negative then -q else q

/-- The number that a value stands for. -/
def Value.rational? : Value → Option ℚ
  | .finite negative mantissa exponent => some (signed negative (mantissa * 2 ^ exponent))
  | .nan | .infinite _ => none

/-- The number that a double stands for, if it is finite. -/
def rational? (x : Float) : Option ℚ := (value x).rational?

theorem rational?_packed_zero (s : Sign) : rational? (packed (.zero s)) = some 0 := by
  rw [rational?, value_packed_zero, Value.rational?, Nat.cast_zero, zero_mul, signed, neg_zero,
    ite_self]

theorem rational?_packed_finite {s : Sign} {m : Nat} {e : Int} (positive : 0 < m)
    (canonical : Canonical m e) :
    rational? (packed (.finite s m e positive)) =
      some (signed (s == .negative) (m * 2 ^ e)) := by
  rw [rational?, value_packed_finite positive canonical, Value.rational?]

theorem abs_signed (negative : Bool) {q : ℚ} (nonneg : 0 ≤ q) : |signed negative q| = q := by
  cases negative
  · exact abs_of_nonneg nonneg
  · exact (abs_neg q).trans (abs_of_nonneg nonneg)

/-- What a finite double is taken apart into. -/
inductive Exact : UnpackedFloat → ℚ → Prop where
  | zero (s : Sign) : Exact (.zero s) 0
  | finite (s : Sign) (m : Nat) (e : Int) (positive : 0 < m) :
      Canonical m e → Exact (.finite s m e positive) (signed (s == .negative) (m * 2 ^ e))

theorem exact_of_rational? {x : Float} {a : ℚ} (known : rational? x = some a) :
    Exact x.toModel.unpack a := by
  rw [rational?, value_eq_unpack] at known
  cases unpacked : x.toModel.unpack with
  | notANumber => simp [unpacked, Value.ofUnpacked, Value.rational?] at known
  | infinity s => simp [unpacked, Value.ofUnpacked, Value.rational?] at known
  | zero s =>
    have zero : signed (s == .negative) (((0 : Nat) : ℚ) * 2 ^ (-1074 : Int)) = 0 := by
      rw [Nat.cast_zero, zero_mul, signed, neg_zero, ite_self]
    rw [unpacked] at known
    cases known
    rw [zero]
    exact .zero s
  | finite s m e positive =>
    have canonical : Canonical m e := by
      apply canonical_of_value (x := x)
      rw [value_eq_unpack, unpacked]
      rfl
    rw [unpacked] at known
    cases known
    exact .finite s m e positive canonical

theorem two_zpow_pos (e : Int) : (0 : ℚ) < 2 ^ e := zpow_pos two_pos e

theorem compare_canonical {m n : Nat} {e f : Int} (left : Canonical m e) (right : Canonical n f) :
    (compare e f).then (compare m n) = compare ((m : ℚ) * 2 ^ e) (n * 2 ^ f) := by
  -- A mantissa whose exponent is not the least has its leading bit, so exponents decide first.
  have below {m n : Nat} {e f : Int} (left : Canonical m e) (right : Canonical n f) (less : e < f) :
      (m : ℚ) * 2 ^ e < n * 2 ^ f := by
    have full : 2 ^ 52 ≤ n := right.normal.resolve_right (by have := left.le_exponent; omega)
    calc (m : ℚ) * 2 ^ e < 2 ^ 53 * 2 ^ e := by
          have := left.mantissa_lt
          exact mul_lt_mul_of_pos_right (by exact_mod_cast this) (two_zpow_pos e)
      _ = 2 ^ 52 * 2 ^ (e + 1) := by
          rw [zpow_add₀ two_ne_zero]
          ring
      _ ≤ n * 2 ^ f := by
          apply mul_le_mul
          · exact_mod_cast full
          · exact zpow_le_zpow_right₀ one_le_two less
          · exact (two_zpow_pos _).le
          · exact Nat.cast_nonneg n
  rcases lt_trichotomy e f with less | rfl | greater
  · rw [compare_lt_iff_lt.mpr less, compare_lt_iff_lt.mpr (below left right less)]
    rfl
  · rw [compare_eq_iff_eq.mpr rfl]
    rcases lt_trichotomy m n with less | rfl | greater
    · rw [compare_lt_iff_lt.mpr less, compare_lt_iff_lt.mpr]
      · rfl
      · exact mul_lt_mul_of_pos_right (by exact_mod_cast less) (two_zpow_pos e)
    · simp
    · rw [compare_gt_iff_gt.mpr greater, compare_gt_iff_gt.mpr]
      · rfl
      · exact mul_lt_mul_of_pos_right (by exact_mod_cast greater) (two_zpow_pos e)
  · rw [compare_gt_iff_gt.mpr greater, compare_gt_iff_gt.mpr (below right left greater)]
    rfl

theorem compare_neg (a b : ℚ) : compare (-a) (-b) = (compare a b).swap := by
  rcases lt_trichotomy a b with less | rfl | greater
  · rw [compare_lt_iff_lt.mpr less, compare_gt_iff_gt.mpr (neg_lt_neg less)]
    rfl
  · rw [compare_eq_iff_eq.mpr rfl, compare_eq_iff_eq.mpr rfl]
    rfl
  · rw [compare_gt_iff_gt.mpr greater, compare_lt_iff_lt.mpr (neg_lt_neg greater)]
    rfl

theorem Exact.compare {u v : UnpackedFloat} {a b : ℚ} (left : Exact u a) (right : Exact v b) :
    u.compare v = some (compare a b) := by
  have magnitude (m : Nat) (e : Int) (positive : 0 < m) : (0 : ℚ) < m * 2 ^ e :=
    mul_pos (by exact_mod_cast positive) (two_zpow_pos e)
  cases left with
  | zero s =>
    cases right with
    | zero t =>
      rw [compare_eq_iff_eq.mpr rfl]
      rfl
    | finite t n f above canonical =>
      cases t
      · rw [compare_gt_iff_gt.mpr]
        · rfl
        · exact neg_lt_zero.mpr (magnitude n f above)
      · rw [compare_lt_iff_lt.mpr]
        · rfl
        · exact magnitude n f above
  | finite s m e positive canonical =>
    cases right with
    | zero t =>
      cases s
      · rw [compare_lt_iff_lt.mpr]
        · rfl
        · exact neg_lt_zero.mpr (magnitude m e positive)
      · rw [compare_gt_iff_gt.mpr]
        · rfl
        · exact magnitude m e positive
    | finite t n f above canonical' =>
      have same := compare_canonical canonical canonical'
      cases s <;> cases t
      · change some ((Ord.compare e f).then (Ord.compare m n)).swap = some (Ord.compare (-_) (-_))
        rw [same, compare_neg]
      · rw [compare_lt_iff_lt.mpr]
        · rfl
        · exact (neg_lt_zero.mpr (magnitude m e positive)).trans (magnitude n f above)
      · rw [compare_gt_iff_gt.mpr]
        · rfl
        · exact (neg_lt_zero.mpr (magnitude n f above)).trans (magnitude m e positive)
      · exact congrArg some same

section
variable {x y : Float} {a b : ℚ}

theorem lt_iff (left : rational? x = some a) (right : rational? y = some b) : x < y ↔ a < b := by
  change decide (x.toModel < y.toModel) = true ↔ _
  rw [decide_eq_true_iff]
  change (x.toModel.unpack.compare y.toModel.unpack == some .lt) = true ↔ _
  rw [(exact_of_rational? left).compare (exact_of_rational? right), beq_iff_eq, Option.some_inj, compare_lt_iff_lt]

theorem le_iff (left : rational? x = some a) (right : rational? y = some b) : x ≤ y ↔ a ≤ b := by
  change decide (x.toModel ≤ y.toModel) = true ↔ _
  rw [decide_eq_true_iff]
  change (x.toModel.unpack.compare y.toModel.unpack).any (·.isLE) = true ↔ _
  rw [(exact_of_rational? left).compare (exact_of_rational? right), Option.any_some]
  exact Ordering.ne_gt_iff_isLE.symm.trans compare_le_iff_le

theorem beq_iff (left : rational? x = some a) (right : rational? y = some b) :
    (x == y) = true ↔ a = b := by
  change (x.toModel.unpack.compare y.toModel.unpack == some .eq) = true ↔ _
  rw [(exact_of_rational? left).compare (exact_of_rational? right), beq_iff_eq, Option.some_inj, compare_eq_iff_eq]

end

end Chip8.Binary64
