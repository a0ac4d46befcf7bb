import Chip8.Binary64

/-! The shortest decimal that reads back as a given double. The reals that round
to a double form an interval around it; the search tries grids of one, two and
more significant digits until a neighbour of the value on the grid lies in that
interval. All comparisons are exact. -/

set_option autoImplicit false

namespace Chip8.Decimal

/-- The number `digits` times a power of ten. -/
structure Scaled where
  digits : Nat
  exponent : Int
  deriving DecidableEq, Repr

/-- Compares `a * 10 ^ i` with `b * 2 ^ j`. -/
def compareScaled (a : Nat) (i : Int) (b : Nat) (j : Int) : Ordering :=
  compare ((a * Nat.pow 10 i.toNat) <<< (-j).toNat) ((b * Nat.pow 10 (-i).toNat) <<< j.toNat)

/-- Whether a decimal lies among the reals that round to `mantissa * 2 ^ exponent`.
The gap below is halved at a power of two; the ends belong to even mantissas. -/
def readsBack (mantissa : Nat) (exponent : Int) (d : Scaled) : Bool :=
  let narrow := mantissa = Binary64.leadingBit ∧ exponent > -1074
  let low := if narrow then 4 * mantissa - 1 else 4 * mantissa - 2
  let high := 4 * mantissa + 2
  let even := mantissa % 2 = 0
  let fromLow := compareScaled d.digits d.exponent low (exponent - 2)
  let toHigh := compareScaled d.digits d.exponent high (exponent - 2)
  (fromLow == .gt || (even && fromLow == .eq)) && (toHigh == .lt || (even && toHigh == .eq))

/-- The least power of ten above `mantissa * 2 ^ exponent`, searched upwards from
an estimate that is never too high. -/
def magnitude (mantissa : Nat) (exponent : Int) : Int :=
  let bits := exponent + mantissa.log2
  let estimate := bits * 30103 / 100000 - 1
  ((List.range 4).map fun (k : Nat) => estimate + k).find?
    (fun k => compareScaled 1 k mantissa exponent == .gt) |>.getD (estimate + 4)

/-- The best decimal on the grid of a power of ten: of the two neighbours that
read back the nearer, and of two equally near ones the even. -/
def onGrid (mantissa : Nat) (exponent grid : Int) : Option Scaled :=
  let numerator := (mantissa * Nat.pow 10 (-grid).toNat) <<< exponent.toNat
  let denominator := Nat.pow 10 grid.toNat <<< (-exponent).toNat
  let below := numerator / denominator
  let candidates := [below, below + 1].filter fun d => readsBack mantissa exponent ⟨d, grid⟩
  match candidates with
  | [] => none
  | [d] => some ⟨d, grid⟩
  | _ =>
      match compare (2 * numerator) ((2 * below + 1) * denominator) with
      | .lt => some ⟨below, grid⟩
      | .gt => some ⟨below + 1, grid⟩
      | .eq => some ⟨if below % 2 = 0 then below else below + 1, grid⟩

/-- The decimal of the fewest digits that reads back, nearest to the value. -/
def shortest (mantissa : Nat) (exponent : Int) : Scaled :=
  let top := magnitude mantissa exponent
  ((List.range 17).findSome? fun (n : Nat) => onGrid mantissa exponent (top - (n + 1))).getD
    ⟨(mantissa * Nat.pow 5 (-exponent).toNat) <<< exponent.toNat, if exponent < 0 then exponent else 0⟩

end Chip8.Decimal
