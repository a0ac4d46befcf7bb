import Chip8.Proofs.FloorQuotient

/-! What is infinite or no number does not become a number again: sums, differences and
products stay as they are, and a floor quotient of it is no number. -/

set_option autoImplicit false

namespace Chip8.Binary64

open Float.Model Float.Model.UnpackedFloat

section
variable {x y : Float}

theorem rational?_eq_none_iff : rational? x = none ↔ x.toModel.unpack.isFinite = false := by
  rw [rational?, value_eq_unpack]
  cases x.toModel.unpack <;> simp [Value.ofUnpacked, Value.rational?, UnpackedFloat.isFinite]

theorem rational?_packed_eq_none {u : UnpackedFloat} (special : u.isFinite = false) :
    rational? (packed u) = none := by
  rw [rational?, value_eq_unpack]
  cases u with
  | notANumber => rfl
  | infinity s => cases s <;> rfl
  | zero s => cases special
  | finite s m e positive => cases special

theorem isFinite_add {u v : UnpackedFloat} (special : u.isFinite = false ∨ v.isFinite = false) :
    (UnpackedFloat.add Format.binary64 u v).isFinite = false := by
  cases u <;> cases v <;> simp_all [UnpackedFloat.add, UnpackedFloat.isFinite]
  next s t => cases s <;> cases t <;> rfl

theorem isFinite_sub {u v : UnpackedFloat} (special : v.isFinite = false) :
    (UnpackedFloat.sub Format.binary64 u v).isFinite = false := by
  rw [unpacked_sub]
  apply isFinite_add
  cases v <;> exact .inr special

theorem isFinite_mul {u v : UnpackedFloat} (special : v.isFinite = false) :
    (UnpackedFloat.mul Format.binary64 u v).isFinite = false := by
  cases u <;> cases v <;> simp_all [UnpackedFloat.mul, UnpackedFloat.isFinite]

theorem add_not_finite (special : rational? x = none ∨ rational? y = none) :
    rational? (x + y) = none := by
  rw [rational?_eq_none_iff, rational?_eq_none_iff] at special
  exact rational?_packed_eq_none (isFinite_add special)

theorem sub_not_finite (special : rational? y = none) : rational? (x - y) = none :=
  rational?_packed_eq_none (isFinite_sub (rational?_eq_none_iff.mp special))

theorem mul_not_finite (special : rational? y = none) : rational? (x * y) = none :=
  rational?_packed_eq_none (isFinite_mul (rational?_eq_none_iff.mp special))

theorem value_nan_iff : value x = .nan ↔ x.toModel.unpack = .notANumber := by
  rw [value_eq_unpack]
  cases x.toModel.unpack <;> simp [Value.ofUnpacked]

theorem value_packed_nan {u : UnpackedFloat} (special : u = .notANumber) :
    value (packed u) = .nan := by
  rw [special]
  rfl

theorem sub_nan (special : value x = .nan ∨ value y = .nan) : value (x - y) = .nan := by
  apply value_packed_nan
  rw [value_nan_iff, value_nan_iff] at special
  rcases special with left | right
  · rw [left, UnpackedFloat.sub]
  · rw [right]
    cases x.toModel.unpack <;> simp [UnpackedFloat.sub]

theorem nan_div (special : value x = .nan) : value (x / y) = .nan := by
  apply value_packed_nan
  rw [value_nan_iff.mp special, UnpackedFloat.div]

theorem nan_beq (special : value x = .nan) : (x == y) = false := by
  change (x.toModel.unpack.compare y.toModel.unpack == some .eq) = false
  rw [value_nan_iff.mp special]
  rfl

theorem not_lt_nan (special : value y = .nan) : ¬ x < y := by
  change ¬ decide (x.toModel < y.toModel) = true
  rw [decide_eq_true_iff]
  change ¬ (x.toModel.unpack.compare y.toModel.unpack == some .lt) = true
  rw [value_nan_iff.mp special]
  cases x.toModel.unpack <;> simp [UnpackedFloat.compare]

theorem remainder_nan (special : rational? x = none) : value (remainder x y) = .nan := by
  have nan : value (0.0 / 0.0) = .nan := by decide +kernel
  unfold remainder
  rw [rational?] at special
  cases read : value x with
  | nan => exact nan
  | infinite negative => exact nan
  | finite negative m e =>
    rw [read] at special
    cases special

/-- A quotient of what is not finite is no number. -/
theorem floorQuotient_nan (special : rational? x = none) : value (floorQuotient x y) = .nan := by
  have quotient : value ((x - remainder x y) / y) = .nan :=
    nan_div (sub_nan (.inr (remainder_nan special)))
  have floored {z : Float} (nan : value z = .nan) : floor z = z := by rw [floor, nan]
  have snapped {z : Float} (nan : value z = .nan) :
      value (if (z == 0.0) = true then 0.0
        else if z - floor z > 0.5 then floor z + 1.0 else floor z) = .nan := by
    rw [nan_beq nan, if_neg (by decide), floored nan, if_neg (not_lt_nan (sub_nan (.inl nan))), nan]
  -- Whether or not the quotient was corrected for its sign, it is no number by then.
  unfold floorQuotient
  dsimp only
  split
  · exact snapped (sub_nan (.inl quotient))
  · exact snapped quotient

end

end Chip8.Binary64
