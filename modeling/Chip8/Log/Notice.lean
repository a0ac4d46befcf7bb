import Chip8.Log.Level

/-! What the machine has to say about its work. A notice is recorded whatever
the level in force; the level decides only which notices are printed. -/

set_option autoImplicit false

namespace Chip8.Log

structure Notice where
  level : Level
  source : String
  text : String
  deriving DecidableEq, Repr

/-- Pads with blanks on the left. -/
def alignRight (width : Nat) (text : String) : String :=
  String.ofList (List.replicate (width - text.length) ' ') ++ text

/-- A line without colour and time: the level, the source and the text. -/
def plainLine (level source text : String) : String :=
  "[" ++ alignRight 8 level ++ "][" ++ source ++ "] " ++ text

namespace Notice

def line (notice : Notice) : String := plainLine notice.level.name notice.source notice.text

def shown (threshold : Level) (notice : Notice) : Bool :=
  decide (threshold.rank ≤ notice.level.rank)

def lines (threshold : Level) (notices : List Notice) : List String :=
  (notices.filter (shown threshold)).map line

end Notice

end Chip8.Log
