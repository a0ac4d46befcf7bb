import Chip8.Proofs.Effects

/-! Drawing, pixel by pixel. A sprite falls on the N rows and eight columns that start at
VY and VX and go on around the edges; its bits turn pixels over, and a set bit that meets
a set pixel is a collision. A loop over the bits, one at a time, comes to the same. -/

set_option autoImplicit false

namespace Chip8

open Fallible

namespace Screen

theorem eq_of_pixel_eq {a b : Screen} (same : ∀ r c, a.pixel r c = b.pixel r c) : a = b := by
  apply Vector.ext
  intro r bound
  apply BitVec.eq_of_getMsbD_eq
  intro c inside
  exact same ⟨r, bound⟩ ⟨c, inside⟩

theorem ne_zero_iff (row : BitVec 64) : row ≠ 0 ↔ ∃ c : Fin 64, row.getMsbD c = true := by
  have zero (c : Nat) : (0 : BitVec 64).getMsbD c = false := BitVec.getMsbD_zero
  constructor
  · intro on
    apply Classical.byContradiction
    intro off
    apply on
    apply BitVec.eq_of_getMsbD_eq
    intro c inside
    rw [zero, ← Bool.not_eq_true]
    intro bit
    exact off ⟨⟨c, inside⟩, bit⟩
  · rintro ⟨c, bit⟩ rfl
    rw [zero] at bit
    cases bit

theorem overlaps_iff {a b : Screen} :
    a.overlaps b = true ↔ ∃ r c, a.pixel r c = true ∧ b.pixel r c = true := by
  simp only [overlaps, Vector.any_eq_true, Vector.getElem_zipWith, decide_eq_true_eq,
    ne_zero_iff, BitVec.getMsbD_and, Bool.and_eq_true]
  constructor
  · rintro ⟨r, bound, c, both⟩
    exact ⟨⟨r, bound⟩, c, both⟩
  · rintro ⟨r, c, both⟩
    exact ⟨r.val, r.isLt, c, both⟩

/-- The screen with one pixel turned over. -/
def invert (s : Screen) (row : Fin 32) (column : Fin 64) : Screen :=
  Vector.ofFn fun r => if r = row then s.get r ^^^ BitVec.twoPow 64 (63 - column.val) else s.get r

theorem pixel_invert (s : Screen) (row r : Fin 32) (column c : Fin 64) :
    (s.invert row column).pixel r c =
      (s.pixel r c ^^ decide (r = row ∧ c = column)) := by
  have cell (k : Fin 32) : s.get k = s[k] := rfl
  have inside : 63 - column.val < 64 := by omega
  have place : c.val = 64 - (63 - column.val) - 1 ↔ c = column := by omega
  by_cases here : row = r
  · subst here
    simp [invert, pixel, cell, BitVec.getMsbD_twoPow, inside, place]
  · have other : r ≠ row := Ne.symm here
    simp [invert, pixel, cell, other]

theorem getMsbD_toBitVec (byte : UInt8) (k : Nat) :
    byte.toBitVec.getMsbD k = (decide (k < 8) && byte.toNat.testBit (7 - k)) := by
  rw [← UInt8.toNat_toBitVec, BitVec.testBit_toNat]
  rfl

/-- The eight columns from `column` on, around the edge, show the bits of the byte. -/
theorem getMsbD_spriteRow (byte : UInt8) (column : Nat) (c : Fin 64) :
    (spriteRow byte column).getMsbD c =
      (decide ((((c.val : Int) - column) % 64).toNat < 8) &&
        byte.toNat.testBit (7 - (((c.val : Int) - column) % 64).toNat)) := by
  have turned : (spriteRow byte column).getMsbD c =
      (byte.toBitVec ++ (0 : BitVec 56)).getMsbD (((c.val : Int) - column) % 64).toNat := by
    rw [spriteRow, BitVec.getMsbD_rotateRight, decide_eq_true c.isLt, Bool.true_and]
    split
    · congr 1; omega
    · congr 1; omega
  have zero (k : Nat) : (0 : BitVec 56).getMsbD k = false := BitVec.getMsbD_zero
  rw [turned, BitVec.getMsbD_append, zero, getMsbD_toBitVec]
  split
  case isTrue beyond => rw [decide_eq_false (Nat.not_lt_of_le beyond), Bool.false_and]
  case isFalse => rfl

end Screen

namespace State

section
variable (s : State) (i : Instruction)

/-- How far a row of the screen lies below VY, around the edge. -/
def rowFrom (r : Fin 32) : Nat := (((r.val : Int) - (s.registers.read i.y).toNat) % 32).toNat

/-- How far a column of the screen lies to the right of VX, around the edge. -/
def columnFrom (c : Fin 64) : Nat := (((c.val : Int) - (s.registers.read i.x).toNat) % 64).toNat

/-- The pixel is one of those that the sprite falls on. -/
def Covers (r : Fin 32) (c : Fin 64) : Prop := s.rowFrom i r < i.n.val ∧ s.columnFrom i c < 8

instance (r : Fin 32) (c : Fin 64) : Decidable (s.Covers i r c) :=
  inferInstanceAs (Decidable (_ ∧ _))

/-- The sprite bit that falls on a pixel. There is none where the sprite does not reach. -/
def spriteBit (r : Fin 32) (c : Fin 64) : Bool :=
  decide (s.Covers i r c) &&
    (s.memory.read (s.index.toNat + s.rowFrom i r)).toNat.testBit (7 - s.columnFrom i c)

theorem pixel_spriteOf (r : Fin 32) (c : Fin 64) :
    (s.spriteOf i (s.memory.slice s.index.toNat i.n.val)).pixel r c = s.spriteBit i r c := by
  have row : (r.val + 32 - (s.registers.read i.y).toNat % 32) % 32 = s.rowFrom i r := by
    unfold rowFrom
    omega
  simp only [spriteOf, Screen.sprite, Screen.pixel, Fin.getElem_fin, Vector.getElem_ofFn, row,
    Memory.getElem?_slice]
  by_cases reached : s.rowFrom i r < i.n.val
  · simp only [reached, if_true, spriteBit, Covers, true_and]
    exact Screen.getMsbD_spriteRow _ _ c
  · simp [spriteBit, Covers, reached]

/-! ## The loop over the bits -/

/-- The row of the screen that lies so far below VY. -/
def rowAt (down : Nat) : Fin 32 := Fin.ofNat 32 ((s.registers.read i.y).toNat + down)

/-- The column of the screen that lies so far to the right of VX. -/
def columnAt (along : Nat) : Fin 64 := Fin.ofNat 64 ((s.registers.read i.x).toNat + along)

end

end State

/-- The screen in the course of a drawing, and whether set pixels have been met. -/
structure Canvas where
  screen : Screen
  collision : Bool

/-- Puts one bit on a pixel. -/
def Canvas.plot (canvas : Canvas) (row : Fin 32) (column : Fin 64) (bit : Bool) : Canvas :=
  if bit then
    ⟨canvas.screen.invert row column, canvas.collision || canvas.screen.pixel row column⟩
  else canvas

namespace State

section
variable (s : State) (i : Instruction)

/-- The eight bits of a byte of the sprite, from the left. -/
def plotRow (canvas : Canvas) (down : Nat) : Canvas :=
  (List.range 8).foldl (fun canvas along =>
    canvas.plot (s.rowAt i down) (s.columnAt i along)
      ((s.memory.read (s.index.toNat + down)).toNat.testBit (7 - along))) canvas

/-- The bytes of the sprite, from the top. -/
def plotSprite : Canvas := (List.range i.n.val).foldl (s.plotRow i) ⟨s.screen, false⟩

end

end State

/-- A canvas that holds some bits over the screen that it started with. -/
structure Canvas.Holds (start : Screen) (bits : Fin 32 → Fin 64 → Bool) (canvas : Canvas) :
    Prop where
  pixel : ∀ r c, canvas.screen.pixel r c = (start.pixel r c ^^ bits r c)
  collision : canvas.collision = true ↔ ∃ r c, start.pixel r c = true ∧ bits r c = true

section
variable {start : Screen} {bits more : Fin 32 → Fin 64 → Bool} {canvas : Canvas}

/-- One more bit, on a pixel that no bit has been put on. -/
theorem Canvas.Holds.plot {row : Fin 32} {column : Fin 64} {bit : Bool}
    (holds : canvas.Holds start bits) (fresh : bits row column = false)
    (here : more row column = bit)
    (elsewhere : ∀ r c, ¬ (r = row ∧ c = column) → more r c = bits r c) :
    (canvas.plot row column bit).Holds start more := by
  have turned (r : Fin 32) (c : Fin 64) :
      more r c = (bits r c ^^ (bit && decide (r = row ∧ c = column))) := by
    by_cases target : r = row ∧ c = column
    · obtain ⟨rfl, rfl⟩ := target
      simp [here, fresh]
    · simp [elsewhere r c target, target]
  cases bit with
  | false =>
    have same : more = bits := by
      funext r c
      simpa using turned r c
    rw [same]
    exact holds
  | true =>
    have under : canvas.screen.pixel row column = start.pixel row column := by
      rw [holds.pixel, fresh, Bool.xor_false]
    constructor
    · intro r c
      simp only [Canvas.plot, if_true, Screen.pixel_invert, holds.pixel, turned, Bool.true_and,
        Bool.xor_assoc]
    · simp only [Canvas.plot, if_true, Bool.or_eq_true, holds.collision, under]
      constructor
      · rintro (⟨r, c, on, bit⟩ | on)
        · have apart : ¬ (r = row ∧ c = column) := by
            rintro ⟨rfl, rfl⟩
            rw [fresh] at bit
            cases bit
          exact ⟨r, c, on, (elsewhere r c apart).trans bit⟩
        · exact ⟨row, column, on, here⟩
      · rintro ⟨r, c, on, bit⟩
        by_cases target : r = row ∧ c = column
        · obtain ⟨rfl, rfl⟩ := target
          exact .inr on
        · exact .inl ⟨r, c, on, (elsewhere r c target).symm.trans bit⟩

/-- What each turn of a loop over the numbers below a bound keeps, the loop ends with. -/
theorem foldl_range {α : Type} (kept : Nat → α → Prop) {step : α → Nat → α} {a : α} {count : Nat}
    (first : kept 0 a) (next : ∀ k a, k < count → kept k a → kept (k + 1) (step a k)) :
    kept count ((List.range count).foldl step a) := by
  induction count with
  | zero => exact first
  | succ count ih =>
    rw [List.range_succ, List.foldl_append]
    exact next count _ (Nat.lt_succ_self count)
      (ih fun k a within => next k a (Nat.lt_succ_of_lt within))

end

namespace State

section
variable (s : State) (i : Instruction)

/-- The sprite bits that the loop has come past after some bytes and some bits of the next. -/
def bitsPast (down along : Nat) (r : Fin 32) (c : Fin 64) : Bool :=
  decide (s.columnFrom i c < 8 ∧
      (s.rowFrom i r < down ∨ s.rowFrom i r = down ∧ s.columnFrom i c < along)) &&
    (s.memory.read (s.index.toNat + s.rowFrom i r)).toNat.testBit (7 - s.columnFrom i c)

end

section
variable {s : State} {i : Instruction} {canvas : Canvas} {down along : Nat}

theorem rowFrom_eq_iff {r : Fin 32} (within : down < 32) :
    s.rowFrom i r = down ↔ r = s.rowAt i down := by
  rw [Fin.ext_iff, rowFrom, rowAt, Fin.val_ofNat]
  omega

theorem columnFrom_eq_iff {c : Fin 64} (within : along < 64) :
    s.columnFrom i c = along ↔ c = s.columnAt i along := by
  rw [Fin.ext_iff, columnFrom, columnAt, Fin.val_ofNat]
  omega

theorem bitsPast_zero (r : Fin 32) (c : Fin 64) : s.bitsPast i 0 0 r c = false := by
  simp [bitsPast]

theorem bitsPast_succ : s.bitsPast i (down + 1) 0 = s.bitsPast i down 8 := by
  funext r c
  unfold bitsPast
  congr 2
  apply propext
  omega

theorem bitsPast_height : s.bitsPast i i.n.val 0 = s.spriteBit i := by
  funext r c
  unfold bitsPast spriteBit Covers
  congr 2
  apply propext
  omega

theorem holds_plotRow (holds : canvas.Holds s.screen (s.bitsPast i down 0)) (within : down < 32) :
    (s.plotRow i canvas down).Holds s.screen (s.bitsPast i down 8) := by
  refine foldl_range
    (fun along (canvas : Canvas) => canvas.Holds s.screen (s.bitsPast i down along)) holds ?_
  intro along canvas inside holds
  have row : s.rowFrom i (s.rowAt i down) = down := (rowFrom_eq_iff within).mpr rfl
  have column : s.columnFrom i (s.columnAt i along) = along :=
    (columnFrom_eq_iff (by omega)).mpr rfl
  refine holds.plot ?fresh ?here ?elsewhere
  case fresh => simp [bitsPast, row, column]
  case here => simp [bitsPast, row, column, inside]
  case elsewhere =>
    intro r c apart
    rw [← rowFrom_eq_iff within, ← columnFrom_eq_iff (by omega : along < 64)] at apart
    unfold bitsPast
    congr 2
    apply propext
    omega

theorem holds_plotSprite : (s.plotSprite i).Holds s.screen (s.spriteBit i) := by
  rw [← bitsPast_height]
  refine foldl_range
    (fun down (canvas : Canvas) => canvas.Holds s.screen (s.bitsPast i down 0)) ?_ ?_
  · constructor
    · intro r c
      rw [bitsPast_zero, Bool.xor_false]
    · simp [bitsPast_zero]
  · intro down canvas below holds
    have within : down < 32 := by omega
    rw [bitsPast_succ]
    exact holds_plotRow holds within

/-! ## The instruction -/

theorem execute_draw (key : Option Key) (drawing : i.operation = .draw)
    (inside : s.index.toNat + i.n.val ≤ Memory.size) :
    let sprite := s.spriteOf i (s.memory.slice s.index.toNat i.n.val)
    s.execute i key = .ok { s with
      screen := s.screen.xor sprite
      registers :=
        s.registers.write Registers.flag (if s.screen.overlaps sprite then 1 else 0) } := by
  unfold execute
  simp only [drawing, draw, Memory.check_of_inside inside, ok_bind]
  rfl

/-- The sprite at VX and VY as they were before, whatever registers these are. The flag is
the only register that changes. -/
theorem draws_by_pixel (key : Option Key) (drawing : i.operation = .draw)
    (inside : s.index.toNat + i.n.val ≤ Memory.size) :
    ∃ screen collision,
      let registers := s.registers.write Registers.flag (if collision then 1 else 0)
      s.execute i key = .ok { s with screen, registers } ∧
      registers.read Registers.flag = (if collision then 1 else 0) ∧
      (∀ r ≠ Registers.flag, registers.read r = s.registers.read r) ∧
      (∀ r c, screen.pixel r c = (s.screen.pixel r c ^^ s.spriteBit i r c)) ∧
      (collision = true ↔ ∃ r c, s.screen.pixel r c = true ∧ s.spriteBit i r c = true) ∧
      s.plotSprite i = ⟨screen, collision⟩ := by
  let sprite := s.spriteOf i (s.memory.slice s.index.toNat i.n.val)
  have pixel (r : Fin 32) (c : Fin 64) :
      (s.screen.xor sprite).pixel r c = (s.screen.pixel r c ^^ s.spriteBit i r c) := by
    rw [Screen.pixel_xor, pixel_spriteOf]
  have collision : s.screen.overlaps sprite = true ↔
      ∃ r c, s.screen.pixel r c = true ∧ s.spriteBit i r c = true := by
    simp only [Screen.overlaps_iff, sprite, pixel_spriteOf]
  have looped : (s.plotSprite i).Holds s.screen (s.spriteBit i) := holds_plotSprite
  have screens : (s.plotSprite i).screen = s.screen.xor sprite :=
    Screen.eq_of_pixel_eq fun r c => (looped.pixel r c).trans (pixel r c).symm
  have flags : (s.plotSprite i).collision = s.screen.overlaps sprite :=
    Bool.eq_iff_iff.mpr (looped.collision.trans collision.symm)
  refine ⟨_, _, execute_draw key drawing inside, Registers.read_write_self _ _ _, ?_, pixel,
    collision, by rw [← screens, ← flags]⟩
  intro r other
  exact Registers.read_write_of_ne _ _ other

end

/-- The place of a zero that hangs over the lower right corner, with one of its pixels
already on. -/
def cornered : State :=
  { initial ⟨0, 0⟩ .classic with
    registers := (Registers.zero.write Registers.flag 62).write (Instruction.ofInt 0xDF15).y 30
    screen := Screen.blank.invert 31 1 }

/-- VF is the column of the sprite before it is the flag. -/
theorem draws_by_pixel_cornered :
    let zero := Instruction.ofInt 0xDF15
    zero.operation = .draw ∧ cornered.index.toNat + zero.n.val ≤ Memory.size ∧
    ∃ screen,
      cornered.execute zero none = .ok { cornered with
        screen
        registers := cornered.registers.write Registers.flag 1 } ∧
      (cornered.registers.write Registers.flag 1).read Registers.flag = 1 ∧
      screen.pixel 31 1 = false ∧ screen.pixel 31 62 = true ∧ screen.pixel 1 1 = true ∧
      cornered.plotSprite zero = ⟨screen, true⟩ := by
  intro zero
  have drawing : zero.operation = .draw := by decide
  have inside : cornered.index.toNat + zero.n.val ≤ Memory.size := by decide
  obtain ⟨screen, collision, runs, flag, -, pixel, collides, looped⟩ :=
    draws_by_pixel none drawing inside
  have met : collision = true := collides.mpr ⟨31, 1, by decide +kernel, by decide +kernel⟩
  subst met
  refine ⟨drawing, inside, screen, runs, flag, ?_, ?_, ?_, looped⟩
  · rw [pixel]
    decide +kernel
  · rw [pixel]
    decide +kernel
  · rw [pixel]
    decide +kernel

end State

end Chip8
