import Chip8.Binary64

/-! Numbers with a fixed count of places. The exact value is rounded, a half to
the even neighbour. -/

set_option autoImplicit false

namespace Chip8.Decimal

/-- The integer nearest to a quotient; a half goes to the even one. -/
def roundQuotient (numerator denominator : Nat) : Nat :=
  let below := numerator / denominator
  match compare (2 * (numerator % denominator)) denominator with
  | .lt => below
  | .gt => below + 1
  | .eq => if below % 2 = 0 then below else below + 1

def fixed (places : Nat) (x : Float) : String :=
  match Binary64.value x with
  | .nan => "nan"
  | .infinite negative => if negative then "-inf" else "inf"
  | .finite negative mantissa exponent =>
      let scaled := roundQuotient ((mantissa * Nat.pow 10 places) <<< exponent.toNat)
        (1 <<< (-exponent).toNat)
      let digits := (toString scaled).toList
      let padded := List.replicate (places + 1 - digits.length) '0' ++ digits
      let whole := padded.length - places
      String.ofList ((if negative then ['-'] else []) ++ padded.take whole ++ ['.'] ++
        padded.drop whole)

end Chip8.Decimal
