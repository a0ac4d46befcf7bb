import Chip8.Text.Quoted

/-! Colours and the named colour schemes of the display. -/

set_option autoImplicit false

namespace Chip8

structure Rgb where
  red : UInt8
  green : UInt8
  blue : UInt8
  deriving DecidableEq, Repr

inductive Scheme where
  | classic
  | amber
  | white
  | blue
  | retro
  deriving DecidableEq, Repr

/-- The name of a scheme that does not exist. -/
structure UnknownScheme where
  name : String

namespace Scheme

def all : List Scheme := [classic, amber, white, blue, retro]

def name : Scheme → String
  | classic => "classic"
  | amber => "amber"
  | white => "white"
  | blue => "blue"
  | retro => "retro"

/-- The colour of a pixel that is on. -/
def on : Scheme → Rgb
  | classic => ⟨0, 255, 0⟩
  | amber => ⟨255, 176, 0⟩
  | white => ⟨255, 255, 255⟩
  | blue => ⟨0, 255, 255⟩
  | retro => ⟨255, 255, 0⟩

/-- The colour of a pixel that is off. -/
def off : Scheme → Rgb
  | classic => ⟨0, 0, 0⟩
  | amber => ⟨0, 0, 0⟩
  | white => ⟨0, 0, 0⟩
  | blue => ⟨0, 0, 64⟩
  | retro => ⟨64, 0, 64⟩

def names : List String := all.map name

def ofName (text : String) : Except UnknownScheme Scheme :=
  match all.find? fun scheme => scheme.name == text with
  | some scheme => .ok scheme
  | none => .error ⟨text⟩

end Scheme

def UnknownScheme.message (u : UnknownScheme) : String :=
  "Unknown color scheme '" ++ u.name ++ "'. Available: " ++ Text.quotedList Scheme.names

end Chip8
