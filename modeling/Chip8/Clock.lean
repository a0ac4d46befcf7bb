import Chip8.Number

/-! The timer clock turns cycles into ticks of the delay and sound timers. Each
cycle stands for a fixed time; whole periods of it are ticks, and the rest is
carried to the next cycle. The rule is stated once, for any arithmetic: doubles
when it runs, exact numbers when it is reasoned about. -/

set_option autoImplicit false

namespace Chip8

/-- The arithmetic of times. -/
class TimeArithmetic (τ : Type) where
  zero : τ
  one : τ
  tolerance : τ
  add : τ → τ → τ
  subtract : τ → τ → τ
  multiply : τ → τ → τ
  divide : τ → τ → τ
  ofTicks : Int → τ
  /-- The floor of a quotient, as an integer. -/
  wholeQuotient : τ → τ → Except ArithmeticError Int

/-- The settings of a clock and the times that they denote. -/
class ClockSetting (ν : Type) (τ : outParam Type) where
  atMostZero : ν → Bool
  toTime : ν → Except ArithmeticError τ

instance : TimeArithmetic Float where
  zero := 0.0
  one := 1.0
  tolerance := 1e-9
  add := (· + ·)
  subtract := (· - ·)
  multiply := (· * ·)
  divide := (· / ·)
  ofTicks := Float.ofInt
  wholeQuotient x y :=
    if y == 0.0 then .error .divisionByZero else Binary64.toInt (Binary64.floorQuotient x y)

instance : ClockSetting Number Float where
  atMostZero := Number.atMostZero
  toTime := Number.toFloat

structure Clock (ν τ : Type) where
  delay : ν
  period : τ
  elapsed : τ

inductive ClockError (ν : Type) where
  | delayNotPositive (delay : ν)
  | rateNotPositive (rate : ν)
  | arithmetic (error : ArithmeticError)

namespace Clock

/-- Seconds that a cycle stands for unless something else is asked for. -/
def defaultDelay : Number := .float 0.005

/-- Timer ticks per second unless something else is asked for. -/
def defaultRate : Number := .int 60

open TimeArithmetic ClockSetting

variable {ν τ : Type} [TimeArithmetic τ] [ClockSetting ν τ]

/-- The delay is checked before the rate. -/
def create (delay rate : ν) : Except (ClockError ν) (Clock ν τ) :=
  if atMostZero delay then .error (.delayNotPositive delay)
  else if atMostZero rate then .error (.rateNotPositive rate)
  else
    match toTime rate with
    | .error e => .error (.arithmetic e)
    | .ok hz => .ok ⟨delay, divide one hz, zero⟩

/-- One cycle. A small tolerance absorbs the drift of inexact times. When the
ticks cannot be counted the time has passed nevertheless. -/
def advance (c : Clock ν τ) : Clock ν τ × Except ArithmeticError Int :=
  match toTime c.delay with
  | .error e => (c, .error e)
  | .ok delay =>
      let elapsed := add c.elapsed delay
      match wholeQuotient (add elapsed tolerance) c.period with
      | .error e => ({ c with elapsed }, .error e)
      | .ok ticks =>
          ({ c with elapsed := subtract elapsed (multiply (ofTicks ticks) c.period) }, .ok ticks)

end Clock

def ClockError.message : ClockError Number → String
  | delayNotPositive delay => "cycle_delay must be positive, got " ++ delay.text
  | rateNotPositive rate => "timer_hz must be positive, got " ++ rate.text
  | arithmetic error => error.message

end Chip8
