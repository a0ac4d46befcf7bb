import Chip8.ArithmeticError
import Chip8.Decimal.Plain

/-! A setting is an integer of any size or a double. The kind shows in messages. -/

set_option autoImplicit false

namespace Chip8

inductive Number where
  | int (value : Int)
  | float (value : Float)

namespace Number

def text : Number → String
  | int value => toString value
  | float value => Decimal.text value

/-- What is not a number is not at most zero. -/
def atMostZero : Number → Bool
  | int value => decide (value ≤ 0)
  | float value => decide (value ≤ 0.0)

/-- The nearest double. An integer that rounds beyond the largest one has none. -/
def toFloat : Number → Except ArithmeticError Float
  | int value =>
      let nearest := Float.ofInt value
      if nearest.isInf then .error .integerTooLarge else .ok nearest
  | float value => .ok value

end Number

end Chip8
