import Chip8.Proofs.BlockTransfers

/-! Decimal digits. What a conversion stores are the digits of the register, so that a load
of V0, V1 and V2 spells its old value, even into the register itself; and a digit that was
loaded points at its glyph in the font, which lies in memory with all of its rows. -/

set_option autoImplicit false

namespace Chip8

open Fallible

/-- Three decimal digits that spell a byte. -/
structure Spells (hundreds tens ones value : UInt8) : Prop where
  hundreds_le : hundreds.toNat ≤ 9
  tens_le : tens.toNat ≤ 9
  ones_le : ones.toNat ≤ 9
  sum : 100 * hundreds.toNat + 10 * tens.toNat + ones.toNat = value.toNat

theorem spells_decimalDigits (value : UInt8) :
    ∃ hundreds tens ones, State.decimalDigits value = [hundreds, tens, ones] ∧
      Spells hundreds tens ones value := by
  have bound := value.toNat_lt
  have hundreds : (value / 100).toNat = value.toNat / 100 := UInt8.toNat_div value 100
  have tens : (value / 10 % 10).toNat = value.toNat / 10 % 10 := by
    rw [UInt8.toNat_mod, UInt8.toNat_div]
    rfl
  have ones : (value % 10).toNat = value.toNat % 10 := UInt8.toNat_mod value 10
  refine ⟨_, _, _, rfl, ?_⟩
  constructor <;> omega

namespace Font

/-- The rows of a digit's glyph, as the font lists them. -/
def glyph (digit : Nat) : List UInt8 := (glyphs.drop (digit * glyphSize)).take glyphSize

theorem glyph_inside {digit : Nat} (single : digit < 16) :
    digit * glyphSize + glyphSize ≤ glyphs.length := by
  rw [length_glyphs, ← Nat.succ_mul]
  exact Nat.mul_le_mul_right glyphSize single

/-- The font ends far inside memory. -/
theorem address_inside {digit : Nat} (single : digit < 16) : address digit + glyphSize ≤ 80 := by
  rw [address, Nat.zero_add]
  exact glyph_inside single

end Font

section
variable (hundreds tens ones : UInt8)

theorem read_digits (m : Memory) {start : Nat} (inside : start + 3 ≤ Memory.size) :
    let stored := m.write start [hundreds, tens, ones]
    stored.read start = hundreds ∧ stored.read (start + 1) = tens ∧
      stored.read (start + 2) = ones := by
  have stands (k : Nat) (below : k < 3) :
      (m.write start [hundreds, tens, ones]).read (start + k) =
        [hundreds, tens, ones].get ⟨k, below⟩ := m.read_write_add inside below
  exact ⟨stands 0 (by decide), stands 1 (by decide), stands 2 (by decide)⟩

theorem registers_of_load (v : Registers) :
    let loaded := v.load [hundreds, tens, ones]
    loaded.read 0 = hundreds ∧ loaded.read 1 = tens ∧ loaded.read 2 = ones := by
  simp only [Registers.read_load]
  exact ⟨rfl, rfl, rfl⟩

end

namespace State

/-- A new state has every glyph at its address. -/
theorem slice_font (random : Random.Key) (dialect : Dialect) {digit : Nat} (single : digit < 16) :
    (initial random dialect).memory.slice (Font.address digit) Font.glyphSize =
      Font.glyph digit := by
  apply Memory.slice_write_part
  · decide
  · exact Font.glyph_inside single

section
variable {s t : State} {i : Instruction}

theorem execute_decimalDigits (converts : i.operation = .decimalDigits)
    (inside : s.index.toNat + 3 ≤ Memory.size) (key : Option Key) :
    s.execute i key = .ok { s with
      memory := s.memory.write s.index.toNat (decimalDigits (s.registers.read i.x)) } := by
  have check : Memory.check s.index.toNat 3 = .ok () := Memory.check_of_inside inside
  unfold execute
  simp only [converts, storeDigits, check, ok_bind]
  rfl

theorem execute_fontCharacter (points : i.operation = .fontCharacter) (key : Option Key) :
    s.execute i key = .ok { s with index := glyphIndex (s.registers.read i.x) } := by
  unfold execute
  simp only [points]

theorem toNat_glyphIndex {digit : UInt8} (single : digit.toNat < 16) :
    (glyphIndex digit).toNat = Font.address digit.toNat := by
  have below := Font.address_inside single
  rw [glyphIndex, Nat.mod_eq_of_lt single]
  apply UInt16.toNat_ofNat_of_lt'
  exact Nat.lt_of_le_of_lt (Nat.le_of_add_right_le below) (by decide)

/-- The index is where a new state has the glyph of the digit, and five rows can be drawn. -/
structure PointsAt (s : State) (digit : Nat) : Prop where
  index : s.index.toNat = Font.address digit
  glyph : ∀ random dialect,
    (initial random dialect).memory.slice s.index.toNat Font.glyphSize = Font.glyph digit
  draws : ∀ (drawing : Instruction) key, drawing.operation = .draw →
    drawing.n.val = Font.glyphSize → ∃ drawn, s.execute drawing key = .ok drawn

theorem pointsAt_of_index {digit : Nat} (single : digit < 16)
    (index : s.index.toNat = Font.address digit) : s.PointsAt digit := by
  refine ⟨index, ?_, ?_⟩
  · intro random dialect
    rw [index]
    exact slice_font random dialect single
  · intro drawing key draws rows
    have inside : s.index.toNat + drawing.n.val ≤ Memory.size := by
      rw [index, rows]
      exact Nat.le_trans (Font.address_inside single) (by decide)
    exact ⟨_, execute_draw key draws inside⟩

theorem execute_points (points : i.operation = .fontCharacter)
    (single : (s.registers.read i.x).toNat < 16) :
    ∃ t, (∀ key, s.execute i key = .ok t) ∧ t.PointsAt (s.registers.read i.x).toNat := by
  refine ⟨_, execute_fontCharacter points, ?_⟩
  exact pointsAt_of_index single (toNat_glyphIndex single)

/-- F265 right behind a conversion: whatever the registers hold, the digits replace them. -/
theorem load_digits {hundreds tens ones : UInt8} (inside : s.index.toNat + 3 ≤ Memory.size)
    (memory : t.memory = s.memory.write s.index.toNat [hundreds, tens, ones])
    (index : t.index = s.index) :
    ∃ loaded, (∀ key, t.execute (.ofInt 0xF265) key = .ok loaded) ∧
      loaded.registers = t.registers.load [hundreds, tens, ones] := by
  have loads : (Instruction.ofInt 0xF265).operation = .loadRegisters := by decide
  have block : t.memory.slice t.index.toNat 3 = [hundreds, tens, ones] := by
    rw [memory, index]
    exact Memory.slice_write inside
  refine ⟨_, execute_loadRegisters loads (by rw [index]; exact inside), ?_⟩
  exact congrArg t.registers.load block

/-- The conversion of any register and the load after it, and then any of the loaded digits. -/
theorem digits_read_back (converts : i.operation = .decimalDigits)
    (inside : s.index.toNat + 3 ≤ Memory.size) :
    ∃ hundreds tens ones memory, Spells hundreds tens ones (s.registers.read i.x) ∧
      (∀ key, s.execute i key = .ok { s with memory }) ∧
      memory.read s.index.toNat = hundreds ∧
      memory.read (s.index.toNat + 1) = tens ∧
      memory.read (s.index.toNat + 2) = ones ∧
      (∀ address, address < s.index.toNat ∨ s.index.toNat + 3 ≤ address →
        memory.read address = s.memory.read address) ∧
      ∃ loaded, (∀ key, State.execute { s with memory } (.ofInt 0xF265) key = .ok loaded) ∧
        loaded.registers.read 0 = hundreds ∧
        loaded.registers.read 1 = tens ∧
        loaded.registers.read 2 = ones ∧
        100 * (loaded.registers.read 0).toNat + 10 * (loaded.registers.read 1).toNat +
          (loaded.registers.read 2).toNat = (s.registers.read i.x).toNat ∧
        ∀ point, point.operation = .fontCharacter → point.x ≤ 2 →
          ∃ pointed, (∀ key, loaded.execute point key = .ok pointed) ∧
            pointed.PointsAt (loaded.registers.read point.x).toNat := by
  obtain ⟨hundreds, tens, ones, digits, spells⟩ := spells_decimalDigits (s.registers.read i.x)
  have runs := execute_decimalDigits converts inside
  rw [digits] at runs
  obtain ⟨high, middle, low⟩ := read_digits hundreds tens ones s.memory inside
  obtain ⟨loaded, loads, registers⟩ :=
    load_digits (t := { s with memory := s.memory.write s.index.toNat [hundreds, tens, ones] })
      inside rfl rfl
  obtain ⟨first, second, third⟩ := registers_of_load hundreds tens ones s.registers
  rw [← registers] at first second third
  refine ⟨hundreds, tens, ones, _, spells, runs, high, middle, low, ?outside, loaded, loads,
    first, second, third, ?sum, ?glyphs⟩
  case outside =>
    intro address outside
    exact Memory.read_write_of_outside _ outside
  case sum =>
    rw [first, second, third]
    exact spells.sum
  case glyphs =>
    intro point points among
    apply execute_points points
    have register : point.x = 0 ∨ point.x = 1 ∨ point.x = 2 := by omega
    rcases register with same | same | same
    · rw [same, first]
      exact Nat.lt_of_le_of_lt spells.hundreds_le (by decide)
    · rw [same, second]
      exact Nat.lt_of_le_of_lt spells.tens_le (by decide)
    · rw [same, third]
      exact Nat.lt_of_le_of_lt spells.ones_le (by decide)

end

/-- The index is three bytes from the end of memory, and V1 is the largest byte. -/
def counted : State :=
  { initial ⟨0, 0⟩ .classic with
    index := 0xFFD
    registers := Registers.zero.write (Instruction.ofInt 0xF133).x 255 }

/-- V1 becomes a five, its own middle digit, and then the index leads to the glyph of five. -/
theorem digits_read_back_counted :
    ∃ memory loaded pointed,
      counted.execute (.ofInt 0xF133) none = .ok { counted with memory } ∧
      State.execute { counted with memory } (.ofInt 0xF265) none = .ok loaded ∧
      100 * (loaded.registers.read 0).toNat + 10 * (loaded.registers.read 1).toNat +
        (loaded.registers.read 2).toNat = 255 ∧
      loaded.execute (.ofInt 0xF129) none = .ok pointed ∧
      pointed.PointsAt (loaded.registers.read 1).toNat := by
  have converts : (Instruction.ofInt 0xF133).operation = .decimalDigits := by decide
  have inside : counted.index.toNat + 3 ≤ Memory.size := by decide
  obtain ⟨_, _, _, memory, -, runs, -, -, -, -, loaded, loads, -, -, -, sum, glyphs⟩ :=
    digits_read_back converts inside
  obtain ⟨pointed, points, leads⟩ := glyphs (.ofInt 0xF129) (by decide) (by decide)
  exact ⟨memory, loaded, pointed, runs none, loads none, sum, points none, leads⟩

end State

end Chip8
