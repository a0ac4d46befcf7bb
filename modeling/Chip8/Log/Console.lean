import Chip8.Log.Logger

/-! The loggers of a program. Shared loggers are kept by name, one for each, and
follow the level that was last set for all; loggers made on their own do not.
Every logger has an index, given in the order in which loggers appear. -/

set_option autoImplicit false

namespace Chip8.Log

structure Console where
  loggers : Array Logger
  /-- The index of the shared logger of each name. -/
  shared : List (String × Nat)
  defaultLevel : Level
  /-- Whether lines go to a terminal, which alone shows colours. -/
  terminal : Bool
  /-- The times that the clock will tell; the last one it tells for ever. -/
  times : List Float

namespace Console

def fresh (terminal : Bool) (times : List Float) : Console := ⟨#[], [], .info, terminal, times⟩

def readTime (c : Console) : Float × Console :=
  match c.times with
  | [] => (0.0, c)
  | [last] => (last, c)
  | now :: later => (now, { c with times := later })

/-- Makes a logger and returns its index. Any text is accepted as a level. -/
def create (c : Console) (name level : String) (colored timestamped : Bool) : Nat × Console :=
  let (start, c) := c.readTime
  let logger : Logger := ⟨name, Text.upper level, colored && c.terminal, timestamped, start⟩
  (c.loggers.size, { c with loggers := c.loggers.push logger })

/-- The shared logger of a name, made on first use with the default level. -/
def get (c : Console) (name : String) : Nat × Console :=
  match c.shared.lookup name with
  | some index => (index, c)
  | none =>
      let (index, c) := c.create name c.defaultLevel.name true true
      (index, { c with shared := c.shared ++ [(name, index)] })

def assign (c : Console) (index : Nat) (level : Level) : Console :=
  { c with loggers := c.loggers.modify index fun l => { l with level := level.name } }

/-- Sets the level of one logger; an unknown level changes nothing. -/
def setLevel (c : Console) (index : Nat) (level : String) : Except UnknownLevel Console := do
  return c.assign index (← Level.parse level)

/-- Sets the level of every shared logger, present and future; an unknown level
changes nothing. -/
def setLogLevel (c : Console) (level : String) : Except UnknownLevel Console := do
  let level ← Level.parse level
  let c := { c with defaultLevel := level }
  return c.shared.foldl (fun c entry => c.assign entry.2 level) c

/-- Prints a line if the logger shows the level. The clock is read only for a
line that carries its time. -/
def log (c : Console) (index : Nat) (level text : String) : Option String × Console :=
  match c.loggers[index]? with
  | none => (none, c)
  | some logger =>
      if logger.shows level then
        let (now, c) := if logger.timestamped then c.readTime else (0.0, c)
        (some (logger.line now level text), c)
      else (none, c)

end Console

end Chip8.Log
