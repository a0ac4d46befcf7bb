import Chip8.Alu

/-! The closed set of operations, the nibble pattern of each, and the choice of
an operation from the fields of a word. -/

set_option autoImplicit false

namespace Chip8

inductive Operation where
  | clearScreen
  | returnToCaller
  | jump
  | call
  | skipIfEqualImmediate
  | skipIfNotEqualImmediate
  | skipIfEqualRegister
  | setImmediate
  | addImmediate
  | alu (function : Alu)
  | skipIfNotEqualRegister
  | setIndex
  | jumpWithOffset
  | random
  | draw
  | skipIfKey
  | skipIfNotKey
  | getDelayTimer
  | waitForKey
  | setDelayTimer
  | setSoundTimer
  | addToIndex
  | fontCharacter
  | decimalDigits
  | storeRegisters
  | loadRegisters
  | unsupported
  deriving DecidableEq, Repr

namespace Operation

def all : List Operation :=
  [clearScreen, returnToCaller, jump, call, skipIfEqualImmediate, skipIfNotEqualImmediate,
    skipIfEqualRegister, setImmediate, addImmediate, alu .set, alu .or, alu .and, alu .xor,
    alu .add, alu .subtract, alu .shiftRight, alu .subtractFrom, alu .shiftLeft,
    skipIfNotEqualRegister, setIndex, jumpWithOffset, random, draw, skipIfKey, skipIfNotKey,
    getDelayTimer, waitForKey, setDelayTimer, setSoundTimer, addToIndex, fontCharacter,
    decimalDigits, storeRegisters, loadRegisters, unsupported]

/-- The four hexadecimal digits of the operation's words; X, Y and N stand for
any digit. -/
def pattern : Operation → String
  | clearScreen => "00E0"
  | returnToCaller => "00EE"
  | jump => "1NNN"
  | call => "2NNN"
  | skipIfEqualImmediate => "3XNN"
  | skipIfNotEqualImmediate => "4XNN"
  | skipIfEqualRegister => "5XY0"
  | setImmediate => "6XNN"
  | addImmediate => "7XNN"
  | alu .set => "8XY0"
  | alu .or => "8XY1"
  | alu .and => "8XY2"
  | alu .xor => "8XY3"
  | alu .add => "8XY4"
  | alu .subtract => "8XY5"
  | alu .shiftRight => "8XY6"
  | alu .subtractFrom => "8XY7"
  | alu .shiftLeft => "8XYE"
  | skipIfNotEqualRegister => "9XY0"
  | setIndex => "ANNN"
  | jumpWithOffset => "BNNN"
  | random => "CXNN"
  | draw => "DXYN"
  | skipIfKey => "EX9E"
  | skipIfNotKey => "EXA1"
  | getDelayTimer => "FX07"
  | waitForKey => "FX0A"
  | setDelayTimer => "FX15"
  | setSoundTimer => "FX18"
  | addToIndex => "FX1E"
  | fontCharacter => "FX29"
  | decimalDigits => "FX33"
  | storeRegisters => "FX55"
  | loadRegisters => "FX65"
  | unsupported => "????"

def ofSystemWord (x nn : Int) : Operation :=
  if x = 0 ∧ nn = 0xE0 then clearScreen
  else if x = 0 ∧ nn = 0xEE then returnToCaller
  else unsupported

def ofAluNibble (n : Int) : Operation :=
  match n with
  | 0x0 => alu .set
  | 0x1 => alu .or
  | 0x2 => alu .and
  | 0x3 => alu .xor
  | 0x4 => alu .add
  | 0x5 => alu .subtract
  | 0x6 => alu .shiftRight
  | 0x7 => alu .subtractFrom
  | 0xE => alu .shiftLeft
  | _ => unsupported

def ofKeyByte (nn : Int) : Operation :=
  match nn with
  | 0x9E => skipIfKey
  | 0xA1 => skipIfNotKey
  | _ => unsupported

def ofMiscByte (nn : Int) : Operation :=
  match nn with
  | 0x07 => getDelayTimer
  | 0x0A => waitForKey
  | 0x15 => setDelayTimer
  | 0x18 => setSoundTimer
  | 0x1E => addToIndex
  | 0x29 => fontCharacter
  | 0x33 => decimalDigits
  | 0x55 => storeRegisters
  | 0x65 => loadRegisters
  | _ => unsupported

/-- The operation that the fields of a word encode, for fields of any size.
Only an opcode outside 0 to 15 has no answer. -/
def ofFields? (opcode x n nn : Int) : Option Operation :=
  match opcode with
  | 0x0 => some (ofSystemWord x nn)
  | 0x1 => some jump
  | 0x2 => some call
  | 0x3 => some skipIfEqualImmediate
  | 0x4 => some skipIfNotEqualImmediate
  | 0x5 => some (if n = 0 then skipIfEqualRegister else unsupported)
  | 0x6 => some setImmediate
  | 0x7 => some addImmediate
  | 0x8 => some (ofAluNibble n)
  | 0x9 => some (if n = 0 then skipIfNotEqualRegister else unsupported)
  | 0xA => some setIndex
  | 0xB => some jumpWithOffset
  | 0xC => some random
  | 0xD => some draw
  | 0xE => some (ofKeyByte nn)
  | 0xF => some (ofMiscByte nn)
  | _ => none

theorem ofFields?_isSome_iff (opcode x n nn : Int) :
    (ofFields? opcode x n nn).isSome = true ↔ 0 ≤ opcode ∧ opcode < 16 := by
  unfold ofFields?
  split
  case h_17 =>
    simp only [imp_false, Option.isSome_none, Bool.false_eq_true, false_iff] at *
    omega
  all_goals exact ⟨fun _ => by decide, fun _ => rfl⟩

end Operation

end Chip8
