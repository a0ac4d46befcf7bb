import Chip8.TwosComplement

/-! Random bytes. A key yields a byte and the next key; nothing else is drawn from
it. How it does so is left open to the machine. The program draws from a counter-based
generator: a keyed bijection on pairs of 32-bit words, in twenty rounds. -/

set_option autoImplicit false

namespace Chip8.Random

/-- A pair of words: a key, or a block under a key. -/
structure Pair where
  first : UInt32
  second : UInt32
  deriving DecidableEq, Repr

abbrev Key := Pair

/-- What a key yields. -/
class Generator where
  next : Key → Key
  byte : Key → UInt8

namespace Key

section
variable [Generator]

def next (key : Key) : Key := Generator.next key

def byte (key : Key) : UInt8 := Generator.byte key

end

/-- Seeds are signed 64-bit integers and are told apart by their low 32 bits. -/
def ofSeed? (seed : Int) : Option Key :=
  if TwosComplement.fitsInWord seed then some ⟨0, UInt32.ofNat (seed % 0x100000000).toNat⟩ else none

end Key

def rotateLeft (word amount : UInt32) : UInt32 :=
  (word <<< amount) ||| (word >>> (32 - amount))

def mix (block : Pair) (amount : UInt32) : Pair :=
  let sum := block.first + block.second
  ⟨sum, rotateLeft block.second amount ^^^ sum⟩

def oddRotations : List UInt32 := [13, 15, 26, 6]

def evenRotations : List UInt32 := [17, 29, 16, 24]

/-- Four rounds, after which the two words and the group's number are added. -/
def group (block : Pair) (rotations : List UInt32) (a b number : UInt32) : Pair :=
  let mixed := rotations.foldl mix block
  ⟨mixed.first + a, mixed.second + b + number⟩

def encipher (key : Key) (block : Pair) : Pair :=
  let a := key.first
  let b := key.second
  let c := a ^^^ b ^^^ 0x1BD11BDA
  let start : Pair := ⟨block.first + a, block.second + b⟩
  let first := group start oddRotations b c 1
  let second := group first evenRotations c a 2
  let third := group second oddRotations a b 3
  let fourth := group third evenRotations b c 4
  group fourth oddRotations c a 5

/-- The program's generator. -/
instance : Generator where
  next key := encipher key ⟨0, 0⟩
  byte key :=
    let stream := encipher key ⟨0, 1⟩
    let low := encipher stream ⟨0, 1⟩
    let drawn := encipher low ⟨0, 0⟩
    (drawn.first ^^^ drawn.second).toUInt8

end Chip8.Random
