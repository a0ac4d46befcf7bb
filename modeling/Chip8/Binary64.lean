import Chip8.ArithmeticError

/-! Exact readings of double-precision numbers, and the operations whose result
is fixed by that reading: floor, remainder, floor division and conversion to an
integer. -/

set_option autoImplicit false

namespace Chip8.Binary64

/-- A finite value is plus or minus `mantissa` times a power of two. -/
inductive Value where
  | nan
  | infinite (negative : Bool)
  | finite (negative : Bool) (mantissa : Nat) (exponent : Int)
  deriving DecidableEq, Repr

/-- The leading bit of a normal mantissa, which is not stored. -/
def leadingBit : Nat := 0x10000000000000

def negative (x : Float) : Bool := x.toBits >>> 63 == 1

def value (x : Float) : Value :=
  let biased := ((x.toBits >>> 52) &&& 0x7FF).toNat
  let fraction := (x.toBits &&& 0xFFFFFFFFFFFFF).toNat
  if biased = 0x7FF then
    if fraction = 0 then .infinite (negative x) else .nan
  else if biased = 0 then .finite (negative x) fraction (-1074)
  else .finite (negative x) (leadingBit + fraction) ((biased : Int) - 1075)

/-- `n` times a power of two, with a remainder dropped. -/
def scale (n : Nat) (exponent : Int) : Nat := (n <<< exponent.toNat) >>> (-exponent).toNat

/-- The double of the given sign, mantissa and exponent. It is exact when the
value fits 53 bits and the exponent range. -/
def assemble (negative : Bool) (mantissa : Nat) (exponent : Int) : Float :=
  let sign : Nat := if negative then 0x8000000000000000 else 0
  let leading := exponent + mantissa.log2
  let magnitude : Nat :=
    if mantissa = 0 then 0
    else if leading < -1022 then scale mantissa (exponent + 1074)
    else (leading + 1022).toNat * leadingBit + scale mantissa (52 - mantissa.log2)
  Float.ofBits (UInt64.ofNat (sign + magnitude))

def floor (x : Float) : Float :=
  match value x with
  | .finite negative mantissa exponent =>
      if exponent ≥ 0 then x
      else
        let whole := scale mantissa exponent
        let exact := scale whole (-exponent) = mantissa
        assemble negative (if negative ∧ ¬ exact then whole + 1 else whole) 0
  | _ => x

/-- The remainder of the division truncated towards zero. It is exact and has
the sign of the dividend. -/
def remainder (x y : Float) : Float :=
  match value x, value y with
  | .finite negative m p, .finite _ n q =>
      if n = 0 then 0.0 / 0.0
      else
        let unit := min p q
        assemble negative (scale m (p - unit) % scale n (q - unit)) unit
  | .finite .., .infinite _ => x
  | _, _ => 0.0 / 0.0

/-- The floor of a quotient of doubles, found from the remainder: what is left
after taking the remainder away is divided, and the result snapped to the
nearest integer. -/
def floorQuotient (x y : Float) : Float :=
  let rest := remainder x y
  let quotient := (x - rest) / y
  let quotient := if rest != 0.0 && (y < 0.0) != (rest < 0.0) then quotient - 1.0 else quotient
  if quotient == 0.0 then 0.0
  else
    let below := floor quotient
    if quotient - below > 0.5 then below + 1.0 else below

/-- A double with its fraction cut off. -/
def toInt (x : Float) : Except ArithmeticError Int :=
  match value x with
  | .nan => .error .notANumber
  | .infinite _ => .error .infinite
  | .finite negative mantissa exponent =>
      let whole : Int := scale mantissa exponent
      .ok (if negative then -whole else whole)

end Chip8.Binary64
