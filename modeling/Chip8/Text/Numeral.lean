import Chip8.Text.Blank
import Chip8.Text.DecimalDigit

/-! The numerals that options accept. Blanks around a numeral are ignored, any
decimal digits may be used, and an underscore may stand between two digits. -/

set_option autoImplicit false

namespace Chip8.Text

/-- Takes the underscores out; each must stand between two digits. -/
def ungroup (previous : Char) : List Char → Option (List Char)
  | [] => if previous = '_' then none else some []
  | c :: rest =>
      if c = '_' then if previous.isDigit then ungroup c rest else none
      else if previous = '_' ∧ ¬ c.isDigit then none
      else (ungroup c rest).map (c :: ·)

def natOfDigits (digits : List Char) : Nat :=
  digits.foldl (fun n c => 10 * n + (c.toNat - 48)) 0

/-- An optional sign and what follows it. -/
def splitSign : List Char → Bool × List Char
  | '-' :: rest => (true, rest)
  | '+' :: rest => (false, rest)
  | text => (false, text)

/-- A numeral without blanks, underscores and foreign digits. -/
def normalised? (text : String) : Option (List Char) :=
  ungroup ' ' (plainDigits (trim text.toList))

/-- Integers have at most 4300 digits. -/
def readInt? (text : String) : Option Int := do
  let (negative, digits) := splitSign (← normalised? text)
  if digits.isEmpty ∨ digits.length > 4300 ∨ ¬ digits.all Char.isDigit then none
  let magnitude : Int := natOfDigits digits
  return if negative then -magnitude else magnitude

/-- The double nearest to `mantissa` times a power of ten. Exponents far outside
the range are settled without computing the power. -/
def nearestDouble (mantissa : Nat) (exponent : Int) : Float :=
  let leading := exponent + (toString mantissa).length
  if mantissa = 0 ∨ leading < -330 then 0.0
  else if leading > 310 then 1.0 / 0.0
  else Float.ofScientific mantissa (exponent < 0) exponent.natAbs

/-- The power of ten behind a mantissa: nothing, or a mark, a sign and digits. -/
def readExponent? : List Char → Option Int
  | [] => some 0
  | c :: rest => do
      if c ≠ 'e' ∧ c ≠ 'E' then none
      let (negative, digits) := splitSign rest
      if digits.isEmpty ∨ ¬ digits.all Char.isDigit then none
      let magnitude : Int := natOfDigits digits
      return if negative then -magnitude else magnitude

def readUnsigned? (text : List Char) : Option Float := do
  let word := String.ofList (text.map Char.toLower)
  if word = "inf" ∨ word = "infinity" then return 1.0 / 0.0
  if word = "nan" then return 0.0 / 0.0
  let whole := text.takeWhile Char.isDigit
  let afterWhole := text.dropWhile Char.isDigit
  let (fraction, rest) := match afterWhole with
    | '.' :: behind => (behind.takeWhile Char.isDigit, behind.dropWhile Char.isDigit)
    | _ => ([], afterWhole)
  if whole.isEmpty ∧ fraction.isEmpty then none
  let exponent ← readExponent? rest
  return nearestDouble (natOfDigits (whole ++ fraction)) (exponent - fraction.length)

def readFloat? (text : String) : Option Float := do
  let (negative, unsigned) := splitSign (← normalised? text)
  let magnitude ← readUnsigned? unsigned
  return if negative then -magnitude else magnitude

end Chip8.Text
