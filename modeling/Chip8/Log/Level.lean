/-! The five log levels, their names and their rank. -/

set_option autoImplicit false

namespace Chip8.Log

inductive Level where
  | debug
  | info
  | warning
  | error
  | critical
  deriving DecidableEq, Repr

namespace Level

def all : List Level := [debug, info, warning, error, critical]

def name : Level → String
  | debug => "DEBUG"
  | info => "INFO"
  | warning => "WARNING"
  | error => "ERROR"
  | critical => "CRITICAL"

def rank : Level → Nat
  | debug => 0
  | info => 1
  | warning => 2
  | error => 3
  | critical => 4

/-- The level with exactly this upper-case name. -/
def ofName? (name : String) : Option Level := all.find? fun level => level.name == name

end Level

end Chip8.Log
