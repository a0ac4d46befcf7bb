import Chip8.Machine

/-! The keyboard. The sixteen keys lie over the left of the letter rows, and
the escape key quits. -/

set_option autoImplicit false

namespace Chip8

inductive Event where
  | keyDown (code : Int)
  | keyUp (code : Int)
  | quit
  | other
  deriving DecidableEq, Repr

namespace Keypad

/-- Key codes and the keys they stand for:
`1 2 3 4`, `q w e r`, `a s d f` and `z x c v` are the rows
`1 2 3 C`, `4 5 6 D`, `7 8 9 E` and `A 0 B F`. -/
def layout : List (Int × Key) :=
  [(49, 0x1), (50, 0x2), (51, 0x3), (52, 0xC),
   (113, 0x4), (119, 0x5), (101, 0x6), (114, 0xD),
   (97, 0x7), (115, 0x8), (100, 0x9), (102, 0xE),
   (122, 0xA), (120, 0x0), (99, 0xB), (118, 0xF)]

def escape : Int := 27

def keyOf? (code : Int) : Option Key := layout.lookup code

def pollFrom (latest : Option Key) : List Event → Sample
  | [] => ⟨latest, false⟩
  | .quit :: _ => ⟨none, true⟩
  | .keyDown code :: rest =>
      if code = escape then ⟨none, true⟩ else pollFrom ((keyOf? code).or latest) rest
  | _ :: rest => pollFrom latest rest

/-- One poll takes all pending events: a quit among them wins, otherwise the
latest key that went down counts. -/
def poll (events : List Event) : Sample := pollFrom none events

end Keypad

end Chip8
