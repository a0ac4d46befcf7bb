import Chip8.Proofs.Sequence
import Chip8.Proofs.Sprites

/-! Drawings over one another. A drawing turns over the pixels of its figure, and as long
as no flag is a coordinate, the figure is the same whatever has been drawn before. So the
order of drawings does not matter, and drawing everything again takes it all back. -/

set_option autoImplicit false

namespace Chip8

theorem Screen.blank_xor (a : Screen) : blank.xor a = a := by
  rw [xor_comm, xor_blank]

theorem Screen.xor_left_comm (a b c : Screen) : a.xor (b.xor c) = b.xor (a.xor c) := by
  rw [← xor_assoc, xor_comm a b, xor_assoc]

namespace State

/-- The instruction draws rows that lie in memory, at coordinates that are no flag. -/
structure Draws (s : State) (i : Instruction) : Prop where
  operation : i.operation = .draw
  column_ne : i.x ≠ Registers.flag
  row_ne : i.y ≠ Registers.flag
  inside : s.index.toNat + i.n.val ≤ Memory.size

/-- The pixels that a drawing turns over. -/
def figure (s : State) (i : Instruction) : Screen :=
  s.spriteOf i (s.memory.slice s.index.toNat i.n.val)

/-- The pixels that are turned over an odd number of times by some drawings. -/
def overlay (s : State) : List Instruction → Screen
  | [] => .blank
  | i :: rest => (s.figure i).xor (s.overlay rest)

/-- A state with these pixels turned over and any flag, and otherwise as another. -/
structure Repaints (s : State) (turned : Screen) (t : State) : Prop where
  screen : t.screen = s.screen.xor turned
  memory : t.memory = s.memory
  index : t.index = s.index
  registers : ∀ r, r ≠ Registers.flag → t.registers.read r = s.registers.read r

section
variable {s t u : State} {i : Instruction} {key : Option Key}

theorem overlay_append (first rest : List Instruction) :
    s.overlay (first ++ rest) = (s.overlay first).xor (s.overlay rest) := by
  induction first with
  | nil => exact (Screen.blank_xor _).symm
  | cons i first ih => simp only [List.cons_append, overlay, ih, Screen.xor_assoc]

theorem overlay_perm {first second : List Instruction} (perm : first.Perm second) :
    s.overlay first = s.overlay second := by
  induction perm with
  | nil => rfl
  | cons i _ ih => simp only [overlay, ih]
  | swap i j rest => exact Screen.xor_left_comm _ _ _
  | trans _ _ ih₁ ih₂ => exact ih₁.trans ih₂

theorem Repaints.refl (s : State) : s.Repaints .blank s :=
  ⟨(Screen.xor_blank _).symm, rfl, rfl, fun _ _ => rfl⟩

theorem Repaints.trans {a b : Screen} (first : s.Repaints a t) (second : t.Repaints b u) :
    s.Repaints (a.xor b) u where
  screen := by rw [second.screen, first.screen, Screen.xor_assoc]
  memory := second.memory.trans first.memory
  index := second.index.trans first.index
  registers r other := (second.registers r other).trans (first.registers r other)

/-- Earlier drawings do not move a figure and do not change it. -/
theorem Repaints.figure {turned : Screen} (repaints : s.Repaints turned t) (draws : s.Draws i) :
    t.figure i = s.figure i := by
  unfold State.figure spriteOf
  rw [repaints.memory, repaints.index, repaints.registers _ draws.row_ne,
    repaints.registers _ draws.column_ne]

theorem Repaints.draws {turned : Screen} (repaints : s.Repaints turned t) (draws : s.Draws i) :
    t.Draws i :=
  ⟨draws.operation, draws.column_ne, draws.row_ne, repaints.index ▸ draws.inside⟩

theorem pixel_figure (r : Fin 32) (c : Fin 64) : (s.figure i).pixel r c = s.spriteBit i r c :=
  pixel_spriteOf s i r c

theorem execute_draws (draws : s.Draws i) (key : Option Key) :
    ∃ t, s.execute i key = .ok t ∧ s.Repaints (s.figure i) t ∧
      t.registers.read Registers.flag = if s.screen.overlaps (s.figure i) then 1 else 0 := by
  refine ⟨_, execute_draw key draws.operation draws.inside, ⟨rfl, rfl, rfl, ?_⟩, ?_⟩
  · intro r other
    exact Registers.read_write_of_ne _ _ other
  · exact Registers.read_write_self _ _ _

theorem executeAll_draws {drawings : List Instruction} (draws : ∀ i ∈ drawings, s.Draws i)
    (key : Option Key) :
    ∃ t, s.executeAll key drawings = .ok t ∧ s.Repaints (s.overlay drawings) t := by
  -- Figures are taken from the first state throughout, where they do not depend on the past.
  refine executeAll_kept (fun past t => s.Repaints (s.overlay past) t) (.refl s) ?_
  intro past i rest t split repaints
  have member : i ∈ drawings := split ▸ List.mem_append_right past List.mem_cons_self
  obtain ⟨u, runs, next, -⟩ := execute_draws (repaints.draws (draws i member)) key
  rw [repaints.figure (draws i member)] at next
  refine ⟨u, runs, ?_⟩
  rw [overlay_append, overlay, overlay, Screen.xor_blank]
  exact repaints.trans next

/-- A byte that is not zero has a bit that falls on some pixel. -/
theorem spriteBit_of_byte_ne_zero {down : Nat} (within : down < i.n.val)
    (set : s.memory.read (s.index.toNat + down) ≠ 0) : ∃ r c, s.spriteBit i r c = true := by
  have value : (s.memory.read (s.index.toNat + down)).toNat ≠ 0 :=
    fun zero => set (UInt8.toNat_inj.mp zero)
  obtain ⟨k, bit⟩ := Nat.exists_testBit_of_ne_zero value
  have small : k < 8 := by
    have least : 2 ^ k ≤ (s.memory.read (s.index.toNat + down)).toNat := Nat.ge_two_pow_of_testBit bit
    exact (Nat.pow_lt_pow_iff_right (by decide : 1 < 2)).mp
      (Nat.lt_of_le_of_lt least (UInt8.toNat_lt _))
  have row : s.rowFrom i (s.rowAt i down) = down := (rowFrom_eq_iff (by omega)).mpr rfl
  have column : s.columnFrom i (s.columnAt i (7 - k)) = 7 - k :=
    (columnFrom_eq_iff (by omega)).mpr rfl
  refine ⟨s.rowAt i down, s.columnAt i (7 - k), ?_⟩
  have place : 7 - (7 - k) = k := by omega
  have near : 7 - k < 8 := by omega
  simp [spriteBit, Covers, row, column, within, near, place, bit]

/-- The second of two equal drawings meets the pixels that the first turned on. -/
theorem overlaps_again : (s.screen.xor (s.figure i)).overlaps (s.figure i) = true ↔
    ∃ r c, s.spriteBit i r c = true ∧ s.screen.pixel r c = false := by
  simp only [Screen.overlaps_iff, Screen.pixel_xor, pixel_figure]
  refine exists_congr fun r => exists_congr fun c => ?_
  cases s.spriteBit i r c <;> cases s.screen.pixel r c <;> simp

/-- The same drawing twice, and the flag after each. -/
theorem execute_twice (draws : s.Draws i) (key : Option Key) :
    ∃ t u, s.execute i key = .ok t ∧ t.execute i key = .ok u ∧
      t.registers.read Registers.flag = (if s.screen.overlaps (s.figure i) then 1 else 0) ∧
      u.registers.read Registers.flag =
        if (s.screen.xor (s.figure i)).overlaps (s.figure i) then 1 else 0 := by
  obtain ⟨t, runs, repaints, first⟩ := execute_draws draws key
  obtain ⟨u, again, -, second⟩ := execute_draws (repaints.draws draws) key
  rw [repaints.figure draws, repaints.screen] at second
  exact ⟨t, u, runs, again, first, second⟩

theorem drawings_cancel {drawings : List Instruction} (draws : ∀ i ∈ drawings, s.Draws i)
    (key : Option Key) :
    (∃ t, s.executeAll key drawings = .ok t ∧
      ∀ others, others.Perm drawings →
        ∃ u, s.executeAll key others = .ok u ∧ u.screen = t.screen) ∧
    (∃ t, s.executeAll key (drawings ++ drawings) = .ok t ∧ t.screen = s.screen) ∧
    ∀ i ∈ drawings, ∃ t u, s.execute i key = .ok t ∧ t.execute i key = .ok u ∧
      (u.registers.read Registers.flag = 1 ↔
        ∃ r c, s.spriteBit i r c = true ∧ s.screen.pixel r c = false) ∧
      (t.registers.read Registers.flag = 0 →
        (∃ k, k < i.n.val ∧ s.memory.read (s.index.toNat + k) ≠ 0) →
        u.registers.read Registers.flag = 1) := by
  refine ⟨?_, ?_, ?_⟩
  · obtain ⟨t, ran, repaints⟩ := executeAll_draws draws key
    refine ⟨t, ran, ?_⟩
    intro others perm
    obtain ⟨u, also, same⟩ := executeAll_draws (fun i member => draws i (perm.mem_iff.mp member)) key
    exact ⟨u, also, by rw [same.screen, repaints.screen, overlay_perm perm]⟩
  · have twice : ∀ i ∈ drawings ++ drawings, s.Draws i :=
      fun i member => draws i ((List.mem_append.mp member).elim id id)
    obtain ⟨t, ran, repaints⟩ := executeAll_draws twice key
    refine ⟨t, ran, ?_⟩
    rw [repaints.screen, overlay_append, Screen.xor_self, Screen.xor_blank]
  · intro i member
    obtain ⟨t, u, runs, again, first, second⟩ := execute_twice (draws i member) key
    have met : u.registers.read Registers.flag = 1 ↔
        ∃ r c, s.spriteBit i r c = true ∧ s.screen.pixel r c = false := by
      rw [second, ← overlaps_again]
      split <;> simp_all
    refine ⟨t, u, runs, again, met, ?_⟩
    rintro clear ⟨down, within, set⟩
    obtain ⟨r, c, bit⟩ := spriteBit_of_byte_ne_zero within set
    -- A pixel that was on here would have been a collision of the first drawing.
    refine met.mpr ⟨r, c, bit, Bool.eq_false_iff.mpr ?_⟩
    intro on
    have collides : s.screen.overlaps (s.figure i) = true :=
      Screen.overlaps_iff.mpr ⟨r, c, on, (pixel_figure r c).trans bit⟩
    rw [first, if_pos collides] at clear
    cases clear

end

/-- Two places for a zero, both over the lower right corner. -/
def crowded : State :=
  { initial ⟨0, 0⟩ .classic with
    registers := Registers.zero.load [62, 30, 60]
    screen := Screen.sprite [0x80] 31 1 }

theorem drawings_cancel_crowded :
    let right := Instruction.ofInt 0xD015
    let left := Instruction.ofInt 0xD215
    (∃ t u, crowded.executeAll none [right, left] = .ok t ∧
      crowded.executeAll none [left, right] = .ok u ∧ u.screen = t.screen) ∧
    (∃ t, crowded.executeAll none [right, left, right, left] = .ok t ∧
      t.screen = crowded.screen) ∧
    ∃ t u, crowded.execute right none = .ok t ∧ t.execute right none = .ok u ∧
      u.registers.read Registers.flag = 1 := by
  intro right left
  have draws : ∀ i ∈ [right, left], crowded.Draws i := by
    refine List.forall_mem_cons.mpr ⟨?_, List.forall_mem_singleton.mpr ?_⟩
    · exact ⟨by decide, by decide, by decide, by decide⟩
    · exact ⟨by decide, by decide, by decide, by decide⟩
  obtain ⟨⟨t, ran, orders⟩, twice, flags⟩ := drawings_cancel draws none
  obtain ⟨u, also, same⟩ := orders [left, right] (.swap right left [])
  obtain ⟨v, w, first, second, met, -⟩ := flags right List.mem_cons_self
  have clear : ∃ r c, crowded.spriteBit right r c = true ∧ crowded.screen.pixel r c = false :=
    ⟨30, 62, by decide +kernel, by decide +kernel⟩
  exact ⟨⟨t, u, ran, also, same⟩, twice, v, w, first, second, met.mpr clear⟩

end State

end Chip8
