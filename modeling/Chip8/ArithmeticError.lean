/-! The ways in which arithmetic on numbers of both kinds can fail. -/

set_option autoImplicit false

namespace Chip8

inductive ArithmeticError where
  | divisionByZero
  | notANumber
  | infinite
  | integerTooLarge
  deriving DecidableEq, Repr

namespace ArithmeticError

def message : ArithmeticError → String
  | divisionByZero => "float floor division by zero"
  | notANumber => "cannot convert float NaN to integer"
  | infinite => "cannot convert float infinity to integer"
  | integerTooLarge => "int too large to convert to float"

end ArithmeticError

end Chip8
