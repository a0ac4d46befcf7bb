/-! Hexadecimal numerals padded with zeros to a least width. -/

set_option autoImplicit false

namespace Chip8.Text

def hexDigit (d : Nat) : Char :=
  if d < 10 then Char.ofNat (48 + d) else Char.ofNat (55 + d)

/-- The digits of `n`, most significant first; zero has one digit. -/
def hexDigits (n : Nat) : List Char :=
  if n < 16 then [hexDigit n] else hexDigits (n / 16) ++ [hexDigit (n % 16)]
termination_by n
decreasing_by omega

/-- A minus sign stands in front of the padding and counts towards the width. -/
def hex (width : Nat) (n : Int) : String :=
  let sign := if n < 0 then ['-'] else []
  let digits := hexDigits n.natAbs
  String.ofList (sign ++ List.replicate (width - sign.length - digits.length) '0' ++ digits)

/-- Lower-case digits of a natural number, padded with zeros. -/
def lowerHex (width n : Nat) : List Char :=
  let digits := (hexDigits n).map Char.toLower
  List.replicate (width - digits.length) '0' ++ digits

end Chip8.Text
