import Chip8.Proofs.Control
import Chip8.Proofs.Path
import Chip8.Proofs.Sprites

/-! The invariant of a machine that started with a loaded program: where its program
counter can be, what its call stack can hold, that the cells of its screen are bits although
they are drawn as bytes, and that no program counter is ever computed past the end of its
sixteen bits. -/

set_option autoImplicit false

namespace Chip8

/-- A byte for every pixel. -/
abbrev FrameBuffer := Fin 32 → Fin 64 → UInt8

/-- A pixel as a cell of a frame buffer of bytes. -/
def Screen.cell (s : Screen) : FrameBuffer := fun row column => if s.pixel row column then 1 else 0

namespace State

/-- What an instruction makes of a frame buffer: the bits of a sprite are bytes of their own,
and their exclusive or with the cells is that of bytes. -/
def painted (s : State) (i : Instruction) (buffer : FrameBuffer) : FrameBuffer := fun row column =>
  match i.operation with
  | .clearScreen => 0
  | .draw => buffer row column ^^^ if s.spriteBit i row column then 1 else 0
  | _ => buffer row column

/-- An address that a call can have left on the stack. -/
def IsReturnAddress (address : UInt16) : Prop := 2 ≤ address.toNat ∧ address.toNat ≤ 0xFFF

structure WellFormed (s : State) : Prop where
  pc_le : s.pc.toNat ≤ 0x1002
  depth_le : s.stack.depth ≤ 16
  addresses : s.stack.Holds IsReturnAddress
  canonical : s.stack.Canonical
  cells : ∀ row column, s.screen.cell row column = 0 ∨ s.screen.cell row column = 1

/-- The additions to the program counter and the subtraction from it, in whatever
instruction comes next, are those of the natural numbers. -/
structure CountsExactly (s : State) : Prop where
  fetch : ∀ i t, s.fetch = .ok (i, t) → t.pc.toNat = s.pc.toNat + 2
  skip : ∀ i t condition, s.fetch = .ok (i, t) →
    (t.skipIf condition).pc.toNat = t.pc.toNat + if condition then 2 else 0
  rewind : ∀ i t, s.fetch = .ok (i, t) → (t.waitForKey i none).pc.toNat + 2 = t.pc.toNat

/-- Whatever instruction comes next, it changes the screen as it changes a frame buffer. -/
def PaintsBytes (s : State) : Prop :=
  ∀ i key t, Machine.instruct s key = .ok (i, t) → t.screen.cell = s.painted i s.screen.cell

section
variable {s t : State} {i : Instruction}

theorem cell_screenAfter (s : State) (i : Instruction) :
    (s.screenAfter i).cell = s.painted i s.screen.cell := by
  funext row column
  unfold screenAfter painted Screen.cell
  cases i.operation with
  | clearScreen =>
    simp only [Screen.pixel_blank]
    rfl
  | draw =>
    simp only [Screen.pixel_xor, pixel_spriteOf]
    cases s.screen.pixel row column <;> cases s.spriteBit i row column <;> rfl
  | _ => rfl

theorem paintsBytes (s : State) : s.PaintsBytes := by
  intro i key t runs
  obtain ⟨fetched, fetch, executes⟩ := Machine.instruct_eq_ok_iff.mp runs
  rw [(leaves_of_execute executes).screen, cell_screenAfter, (fetch_eq_ok fetch).2]
  rfl

/-- Bytes that are bits stay bits. -/
theorem bits_painted {buffer : FrameBuffer}
    (bits : ∀ row column, buffer row column = 0 ∨ buffer row column = 1) (row : Fin 32)
    (column : Fin 64) : s.painted i buffer row column = 0 ∨ s.painted i buffer row column = 1 := by
  unfold painted
  cases i.operation with
  | clearScreen => exact .inl rfl
  | draw =>
    obtain off | on := bits row column
    · cases s.spriteBit i row column <;> simp [off]
    · cases s.spriteBit i row column <;> simp [on]
  | _ => exact bits row column

theorem pc_fetch (h : s.fetch = .ok (i, t)) : t.pc.toNat = s.pc.toNat + 2 := by
  obtain ⟨inside, rfl⟩ := fetch_eq_ok h
  have bound : s.pc.toNat + 2 ≤ 4096 := inside
  have sum : (s.pc + 2).toNat = (s.pc.toNat + 2) % 65536 := UInt16.toNat_add s.pc 2
  change (s.pc + 2).toNat = s.pc.toNat + 2
  omega

theorem pc_skipIf (below : t.pc.toNat ≤ 0x1000) (condition : Bool) :
    (t.skipIf condition).pc.toNat = t.pc.toNat + if condition then 2 else 0 := by
  cases condition with
  | false => rfl
  | true =>
    have sum : (t.pc + 2).toNat = (t.pc.toNat + 2) % 65536 := UInt16.toNat_add t.pc 2
    change (t.pc + 2).toNat = t.pc.toNat + 2
    omega

theorem pc_rewind (above : 2 ≤ t.pc.toNat) : (t.pc - 2).toNat + 2 = t.pc.toNat := by
  have two : (2 : UInt16).toNat = 2 := rfl
  have order : (2 : UInt16) ≤ t.pc := UInt16.le_iff_toNat_le.mpr above
  rw [UInt16.toNat_sub_of_le _ _ order, two]
  omega

theorem pc_fetch_le (h : s.fetch = .ok (i, t)) : t.pc.toNat ≤ 0x1000 := by
  have inside : s.pc.toNat + 2 ≤ 4096 := (fetch_eq_ok h).1
  rw [pc_fetch h]
  exact inside

theorem countsExactly (s : State) : s.CountsExactly where
  fetch i t h := pc_fetch h
  skip i t condition h := pc_skipIf (pc_fetch_le h) condition
  rewind i t h := pc_rewind (by rw [pc_fetch h]; omega)

/-- One instruction. The bound on the program counter needs the one on the stack,
since a return copies a slot, and the other way round, since a call copies the
program counter. -/
theorem WellFormed.instruct {key : Option Key} (sound : s.WellFormed)
    (runs : Machine.instruct s key = .ok (i, t)) : t.WellFormed := by
  obtain ⟨fetched, fetch, executes⟩ := Machine.instruct_eq_ok_iff.mp runs
  have counted := pc_fetch fetch
  have below := pc_fetch_le fetch
  have addresses : fetched.stack.Holds IsReturnAddress := by
    rw [(fetch_eq_ok fetch).2]
    exact sound.addresses
  have canonical : fetched.stack.Canonical := by
    rw [(fetch_eq_ok fetch).2]
    exact sound.canonical
  have cells : ∀ row column, t.screen.cell row column = 0 ∨ t.screen.cell row column = 1 := by
    rw [s.paintsBytes i key t runs]
    exact bits_painted sound.cells
  -- The depth is bounded in every state; what is left follows control.
  suffices rest : t.pc.toNat ≤ 0x1002 ∧ t.stack.Holds IsReturnAddress ∧ t.stack.Canonical from
    ⟨rest.1, t.stack.depth_le, rest.2.1, rest.2.2, cells⟩
  cases control_of_execute executes with
  | called _ pushed pc =>
    have target : i.target.toNat < 4096 := i.target_lt
    obtain ⟨_, inside, _⟩ := CallStack.push_eq_ok pushed
    have inside : fetched.pc.toNat < 4096 := inside
    -- Fetching put the address at 2 or above, and the push refuses 0x1000 itself.
    have address : IsReturnAddress (UInt16.ofNat fetched.pc.toNat) := by
      rw [UInt16.ofNat_toNat]
      exact ⟨by omega, by omega⟩
    refine ⟨?_, CallStack.holds_push addresses address pushed,
      CallStack.canonical_push canonical pushed⟩
    rw [pc]
    omega
  | returned _ popped =>
    obtain ⟨⟨_, inside⟩, rest⟩ := CallStack.holds_pop addresses popped
    exact ⟨by omega, rest, CallStack.canonical_pop canonical popped⟩
  | jumped _ stack inside =>
    have inside : t.pc.toNat < 4096 := inside
    exact ⟨by omega, stack ▸ addresses, stack ▸ canonical⟩
  | rewound _ stack pc =>
    have back := pc_rewind (t := fetched) (by omega)
    rw [← pc] at back
    exact ⟨by omega, stack ▸ addresses, stack ▸ canonical⟩
  | passed skips stack pc =>
    have ahead := pc_skipIf below skips
    rw [← pc] at ahead
    refine ⟨?_, stack ▸ addresses, stack ▸ canonical⟩
    cases skips with
    | false => exact Nat.le_trans (Nat.le_of_eq ahead) (Nat.le_trans below (by decide))
    | true => exact Nat.le_trans (Nat.le_of_eq ahead) (Nat.add_le_add_right below 2)

theorem WellFormed.elapse (sound : s.WellFormed) (ticks : Int) : (s.elapse ticks).WellFormed :=
  ⟨sound.pc_le, sound.depth_le, sound.addresses, sound.canonical, sound.cells⟩

end

theorem wellFormed_initial (random : Random.Key) (dialect : Dialect) :
    (initial random dialect).WellFormed where
  pc_le := show (UInt16.ofNat Memory.programStart).toNat ≤ 0x1002 by decide
  depth_le := Nat.zero_le 16
  addresses := CallStack.holds_empty IsReturnAddress
  canonical := CallStack.canonical_empty
  cells row column := by
    left
    change (if Screen.blank.pixel row column then (1 : UInt8) else 0) = 0
    rw [Screen.pixel_blank]
    rfl

theorem WellFormed.loadProgram {s t : State} {program : List UInt8} (sound : s.WellFormed)
    (loads : s.loadProgram program = .ok t) : t.WellFormed := by
  unfold State.loadProgram at loads
  split at loads
  case isTrue => cases loads
  case isFalse =>
    cases loads
    exact ⟨sound.pc_le, sound.depth_le, sound.addresses, sound.canonical, sound.cells⟩

theorem loadProgram_of_fits (s : State) {program : List UInt8}
    (fits : program.length ≤ Memory.maxProgramSize) :
    s.loadProgram program =
      .ok { s with memory := s.memory.write Memory.programStart program } := by
  have fits : program.length ≤ 3584 := fits
  have inside : ¬ Memory.programStart + program.length > Memory.size := by
    change ¬ 0x200 + program.length > 4096
    omega
  rw [State.loadProgram, if_neg inside]

end State

namespace Machine

theorem wellFormed_cycleWith {m : Machine} (sound : m.state.WellFormed) (reading : Reading) :
    (m.cycleWith reading).1.state.WellFormed := by
  obtain ⟨-, same⟩ | ⟨-, i, after, ticks, runs, same⟩ := m.cycleWith_cases reading
  · rw [same]
    exact sound
  · rw [same]
    exact (sound.instruct runs).elapse ticks

theorem wellFormed_of_reachable {start m : Machine} (sound : start.state.WellFormed)
    (path : Reachable start m) : m.state.WellFormed :=
  path.preserves (fun k => k.state.WellFormed) sound
    fun _ reading _ _ sound => wellFormed_cycleWith sound reading

/-- Whatever the program, the keys and the timers do. The last part is about the runs of
the clock's own making. -/
theorem loaded_wellFormed (random : Random.Key) (dialect : Dialect) (program : List UInt8)
    (fits : program.length ≤ Memory.maxProgramSize) :
    ∃ loaded, (State.initial random dialect).loadProgram program = .ok loaded ∧
      ∀ start : Machine, start.state = loaded →
        (∀ m, Reachable start m →
          m.state.WellFormed ∧ m.state.CountsExactly ∧ m.state.PaintsBytes) ∧
        ∀ limit, (start.run limit).1.state.WellFormed := by
  have loads := (State.initial random dialect).loadProgram_of_fits fits
  refine ⟨_, loads, ?_⟩
  intro start same
  have sound : start.state.WellFormed := by
    rw [same]
    exact (State.wellFormed_initial random dialect).loadProgram loads
  constructor
  · intro m path
    exact ⟨wellFormed_of_reachable sound path, m.state.countsExactly, m.state.paintsBytes⟩
  · intro limit
    rw [state_run]
    exact wellFormed_of_reachable sound (reachable_cyclesUpTo _ start)

/-- A program that calls a subroutine, after its first cycle. -/
theorem loaded_wellFormed_subroutine :
    ∃ loaded, (State.initial ⟨0, 0⟩ .classic).loadProgram [0x22, 0x04, 0x12, 0x00, 0x00, 0xEE] =
        .ok loaded ∧
      ((fresh loaded).cycleWith ((fresh loaded).clock, .ok 1)).1.state.WellFormed ∧
      ((fresh loaded).cycleWith ((fresh loaded).clock, .ok 1)).1.state.CountsExactly ∧
      ((fresh loaded).cycleWith ((fresh loaded).clock, .ok 1)).1.state.PaintsBytes := by
  obtain ⟨loaded, loads, holds⟩ :=
    loaded_wellFormed ⟨0, 0⟩ .classic [0x22, 0x04, 0x12, 0x00, 0x00, 0xEE] (by decide)
  have path : Reachable (fresh loaded)
      ((fresh loaded).cycleWith ((fresh loaded).clock, .ok 1)).1 :=
    (Path.stay trivial).cycle _ trivial
  exact ⟨loaded, loads, (holds (fresh loaded) rfl).1 _ path⟩

end Machine

end Chip8
