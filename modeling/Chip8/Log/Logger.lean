import Chip8.Decimal.Fixed
import Chip8.Log.Notice
import Chip8.Text.Quoted
import Chip8.Text.Uppercase

/-! A named logger. Its level may be any text: a text that names no level ranks
as information. Lines carry the time since the logger was made and the colour of
their level where those are switched on. -/

set_option autoImplicit false

namespace Chip8.Log

/-- A level that was asked for, in upper case, and does not exist. -/
structure UnknownLevel where
  name : String

def UnknownLevel.message (u : UnknownLevel) : String :=
  "Unknown log level '" ++ u.name ++ "'. Available: " ++ Text.quotedList (Level.all.map Level.name)

/-- The known level that a text names in any case. -/
def Level.parse (text : String) : Except UnknownLevel Level :=
  match Level.ofName? (Text.upper text) with
  | some level => .ok level
  | none => .error ⟨Text.upper text⟩

/-- The rank of a level named in upper case. -/
def rankOf (name : String) : Nat := ((Level.ofName? name).map Level.rank).getD Level.info.rank

structure Logger where
  name : String
  level : String
  colored : Bool
  timestamped : Bool
  start : Float

namespace Logger

def shows (l : Logger) (level : String) : Bool := decide (rankOf l.level ≤ rankOf (Text.upper level))

def resetCode : String := "\x1b[0m"

/-- The terminal codes by upper-case name; other names have no colour. -/
def colorCode (name : String) : String :=
  match name with
  | "DEBUG" => "\x1b[36m"
  | "INFO" => "\x1b[32m"
  | "WARNING" => "\x1b[33m"
  | "ERROR" => "\x1b[31m"
  | "CRITICAL" => "\x1b[35m"
  | "RESET" => resetCode
  | _ => ""

/-- The time since the start, in eight columns with two places. -/
def stamp (l : Logger) (now : Float) : String :=
  "[" ++ alignRight 8 (Decimal.fixed 2 (now - l.start)) ++ "s]"

def label (l : Logger) (level : String) : String :=
  let plain := "[" ++ alignRight 8 level ++ "]"
  if l.colored then colorCode (Text.upper level) ++ plain ++ resetCode else plain

/-- The line printed at time `now`. -/
def line (l : Logger) (now : Float) (level text : String) : String :=
  (if l.timestamped then l.stamp now else "") ++ l.label level ++ "[" ++ l.name ++ "] " ++ text

end Logger

end Chip8.Log
