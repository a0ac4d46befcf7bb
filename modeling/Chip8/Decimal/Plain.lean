import Chip8.Decimal.Shortest

/-! How numbers appear in messages: the fewest digits that identify the number,
positional where the decimal point is at most sixteen places from the first
digit, otherwise with an exponent of at least two digits. -/

set_option autoImplicit false

namespace Chip8.Decimal

def zeros (n : Nat) : List Char := List.replicate n '0'

/-- A whole number keeps a zero behind its point. -/
def positional (digits : List Char) (point : Int) : List Char :=
  if point ≤ 0 then "0.".toList ++ zeros (-point).toNat ++ digits
  else if digits.length ≤ point.toNat then digits ++ zeros (point.toNat - digits.length) ++ ".0".toList
  else digits.take point.toNat ++ ['.'] ++ digits.drop point.toNat

def scientific (digits : List Char) (exponent : Int) : List Char :=
  let fraction := match digits.drop 1 with
    | [] => []
    | rest => '.' :: rest
  let sign := if exponent < 0 then '-' else '+'
  let power := (toString exponent.natAbs).toList
  digits.take 1 ++ fraction ++ ['e', sign] ++ zeros (2 - power.length) ++ power

def dropTrailingZeros (digits : List Char) : List Char :=
  (digits.reverse.dropWhile (· == '0')).reverse

def text (x : Float) : String :=
  match Binary64.value x with
  | .nan => "nan"
  | .infinite negative => if negative then "-inf" else "inf"
  | .finite negative mantissa exponent =>
      let sign := if negative then ['-'] else []
      if mantissa = 0 then String.ofList (sign ++ "0.0".toList)
      else
        let d := shortest mantissa exponent
        let all := (toString d.digits).toList
        let point := d.exponent + all.length
        let digits := dropTrailingZeros all
        String.ofList (sign ++
          if -4 < point ∧ point ≤ 16 then positional digits point
          else scientific digits (point - 1))

end Chip8.Decimal
