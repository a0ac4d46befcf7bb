import Chip8.Proofs.Effects
import Chip8.Proofs.History

/-! Memory as a record of writes. After any history an address holds the byte of the
latest write that covered it, and everything that reads memory reads that byte: the
next instruction, the rows of a sprite, a block of registers. -/

set_option autoImplicit false

namespace Chip8

/-- What every address in memory holds. -/
def Memory.Holds (m : Memory) (held : Nat → UInt8) : Prop :=
  ∀ address, address < Memory.size → m.read address = held address

namespace Machine

/-- The byte that the next cycle writes to an address. What it stores stands in memory
from the index on. -/
def writes? (m : Machine) (address : Nat) : Option UInt8 :=
  match m.committed? with
  | none => none
  | some i =>
      if m.state.index.toNat ≤ address then (m.state.stored i)[address - m.state.index.toNat]?
      else none

/-- The byte of the latest write to an address. -/
def latest? (past : List Machine) (address : Nat) : Option UInt8 :=
  past.reverse.findSome? fun m => m.writes? address

/-- The byte that an address holds by its history: where nothing was written it is the
one from the start. -/
def remembered (start : Machine) (past : List Machine) (address : Nat) : UInt8 :=
  (latest? past address).getD (start.state.memory.read address)

section
variable {start m : Machine} {past : List Machine} {address : Nat}

theorem latest?_append :
    latest? (past ++ [m]) address = (m.writes? address).or (latest? past address) := by
  rw [latest?, List.reverse_append, List.reverse_singleton, List.singleton_append,
    List.findSome?_cons]
  cases m.writes? address <;> rfl

theorem remembered_append :
    remembered start (past ++ [m]) address =
      (m.writes? address).getD (remembered start past address) := by
  rw [remembered, latest?_append]
  cases m.writes? address <;> rfl

/-- A cycle writes all of its bytes or none, and nothing else. -/
theorem memory_cycle (inside : address < Memory.size) :
    m.cycle.1.state.memory.read address =
      (m.writes? address).getD (m.state.memory.read address) := by
  cases commits : m.committed? with
  | none =>
    rw [state_of_committed?_none commits, writes?, commits]
    rfl
  | some i =>
    obtain ⟨after, ticks, runs, state⟩ := instruct_of_committed? commits
    obtain ⟨fetched, fetch, executes⟩ := instruct_eq_ok_iff.mp runs
    have memory : m.cycle.1.state.memory = after.memory := by rw [state]; rfl
    have written : after.memory =
        m.state.memory.write m.state.index.toNat (m.state.stored i) := by
      rw [(State.leaves_of_execute executes).memory, (State.fetch_eq_ok fetch).2]
      rfl
    rw [memory, written, Memory.read_write _ _ _ _ inside, writes?, commits]
    split <;> rfl

theorem memory_performAll (start : Machine) (commands : List Command)
    (inside : address < Memory.size) :
    (start.performAll commands).state.memory.read address =
      remembered start (start.history commands) address := by
  refine kept_performAll
    (fun past k => k.state.memory.read address = remembered start past address)
    ?cycle ?report ?start commands
  case cycle =>
    intro past k held
    rw [memory_cycle inside, held, remembered_append]
  case report =>
    intro past k notices held
    exact held
  case start => rfl

end

end Machine

namespace State

section
variable {s t : State} {i : Instruction} {key : Option Key} {held : Nat → UInt8}

theorem slice_of_held (reads : s.memory.Holds held)
    {start length : Nat} (inside : start + length ≤ Memory.size) :
    s.memory.slice start length = (List.range length).map fun k => held (start + k) := by
  apply List.map_congr_left
  intro k within
  have within : k < length := List.mem_range.mp within
  exact reads (start + k) (by omega)

theorem fetch_of_held (reads : s.memory.Holds held)
    (fetch : s.fetch = .ok (i, t)) :
    i = .ofBytes (held s.pc.toNat) (held (s.pc.toNat + 1)) := by
  obtain ⟨inside, -⟩ := fetch_eq_ok fetch
  rw [fetch_eq, if_pos inside] at fetch
  cases fetch
  rw [reads _ (by omega), reads _ (by omega)]

theorem inside_of_rangeFault? {address length : Nat} (sound : rangeFault? address length = none) :
    address + length ≤ Memory.size := by
  unfold rangeFault? at sound
  split at sound
  case isTrue inside => exact inside
  case isFalse => cases sound

theorem draw_of_held (reads : s.memory.Holds held)
    (runs : Machine.instruct s key = .ok (i, t)) (operation : i.operation = .draw) :
    t.screen = s.screen.xor
      (s.spriteOf i ((List.range i.n.val).map fun k => held (s.index.toNat + k))) := by
  obtain ⟨fetched, fetch, executes⟩ := Machine.instruct_eq_ok_iff.mp runs
  obtain ⟨-, rfl⟩ := fetch_eq_ok fetch
  have sound := execute_eq_ok_iff.mp ⟨t, executes⟩
  simp only [fault?, operation] at sound
  rw [(leaves_of_execute executes).screen]
  simp only [screenAfter, operation]
  rw [← slice_of_held reads (inside_of_rangeFault? sound)]
  rfl

theorem load_of_held (reads : s.memory.Holds held)
    (runs : Machine.instruct s key = .ok (i, t)) (operation : i.operation = .loadRegisters)
    {r : Fin 16} (loaded : r ≤ i.x) : t.registers.read r = held (s.index.toNat + r.val) := by
  obtain ⟨fetched, fetch, executes⟩ := Machine.instruct_eq_ok_iff.mp runs
  obtain ⟨-, rfl⟩ := fetch_eq_ok fetch
  have sound := execute_eq_ok_iff.mp ⟨t, executes⟩
  simp only [fault?, operation] at sound
  have inside := inside_of_rangeFault? sound
  simp only [execute, operation] at executes
  obtain ⟨-, -, done⟩ := Fallible.bind_eq_ok_iff.mp executes
  cases done
  have within : r.val < i.x.val + 1 := Nat.lt_succ_of_le loaded
  rw [Registers.read_load, slice_of_held reads inside]
  simp [within]

end

end State

namespace Machine

/-- A state whose next instruction, of this operation, is executed. -/
theorem instruct_of_operation (s : State) (key : Option Key) (operation : Operation)
    (runs : (instruct s key).toOption.map (fun reached => reached.1.operation) = some operation) :
    ∃ i after, instruct s key = .ok (i, after) ∧ i.operation = operation := by
  obtain ⟨⟨i, after⟩, reached, encoded⟩ := Option.map_eq_some_iff.mp runs
  exact ⟨i, after, Fallible.toOption_eq_some_iff.mp reached, encoded⟩

/-- Self-modified code is what runs: the last three parts are about the next cycle,
whatever it fetches. -/
theorem memory_last_written (start : Machine) (commands : List Command) :
    let m := start.performAll commands
    let held := remembered start (start.history commands)
    (∀ address, address < Memory.size → m.state.memory.read address = held address) ∧
    (∀ i fetched, m.state.fetch = .ok (i, fetched) →
      i = .ofBytes (held m.state.pc.toNat) (held (m.state.pc.toNat + 1))) ∧
    (∀ key i after, instruct m.state key = .ok (i, after) → i.operation = .draw →
      after.screen = m.state.screen.xor
        (m.state.spriteOf i ((List.range i.n.val).map fun k => held (m.state.index.toNat + k)))) ∧
    (∀ key i after, instruct m.state key = .ok (i, after) → i.operation = .loadRegisters →
      ∀ r : Fin 16, r ≤ i.x → after.registers.read r = held (m.state.index.toNat + r.val)) := by
  intro m held
  have reads : m.state.memory.Holds held := fun address => memory_performAll start commands
  refine ⟨reads, ?_, ?_, ?_⟩
  · intro i fetched fetch
    exact State.fetch_of_held reads fetch
  · intro key i after runs operation
    exact State.draw_of_held reads runs operation
  · intro key i after runs operation r loaded
    exact State.load_of_held reads runs operation loaded

/-- Puts the word D001 in its own way, which draws its first byte, and loads it again. -/
def rewriting : Machine :=
  started { State.initial ⟨0, 0⟩ .classic with
    memory := Memory.zero.write Memory.programStart
      [0x60, 0xD0, 0x61, 0x01, 0xA2, 0x0A, 0xF1, 0x55, 0xA2, 0x0A, 0x00, 0x00, 0xF1, 0x65] } []

theorem memory_last_written_rewriting :
    let drawing := rewriting.performAll [.run (some 5)]
    let loading := rewriting.performAll [.run (some 6)]
    let held := remembered rewriting (rewriting.history [.run (some 5)])
    let later := remembered rewriting (rewriting.history [.run (some 6)])
    (held 0x20A = 0xD0 ∧ held 0x20B = 0x01 ∧ drawing.state.memory.read 0x20B = held 0x20B) ∧
    (∃ i after, instruct drawing.state none = .ok (i, after) ∧
      i = .ofBytes (held drawing.state.pc.toNat) (held (drawing.state.pc.toNat + 1)) ∧
      after.screen = drawing.state.screen.xor (drawing.state.spriteOf i
        ((List.range i.n.val).map fun k => held (drawing.state.index.toNat + k)))) ∧
    (∃ i after, instruct loading.state none = .ok (i, after) ∧
      after.registers.read 0 = later (loading.state.index.toNat + (0 : Fin 16).val)) := by
  obtain ⟨reads, fetches, draws, -⟩ := memory_last_written rewriting [.run (some 5)]
  obtain ⟨-, -, -, loads⟩ := memory_last_written rewriting [.run (some 6)]
  have bytes : remembered rewriting (rewriting.history [.run (some 5)]) 0x20A = 0xD0 ∧
      remembered rewriting (rewriting.history [.run (some 5)]) 0x20B = 0x01 := by decide +kernel
  obtain ⟨i, after, runs, draw⟩ :=
    instruct_of_operation (rewriting.performAll [.run (some 5)]).state none .draw
      (by decide +kernel)
  obtain ⟨j, last, ends, load⟩ :=
    instruct_of_operation (rewriting.performAll [.run (some 6)]).state none .loadRegisters
      (by decide +kernel)
  obtain ⟨fetched, fetch, -⟩ := instruct_eq_ok_iff.mp runs
  refine ⟨⟨bytes.1, bytes.2, reads 0x20B (by decide)⟩, ?_, ?_⟩
  · exact ⟨i, after, runs, fetches i fetched fetch, draws none i after runs draw⟩
  · exact ⟨j, last, ends, loads none j last ends load 0 (Fin.zero_le _)⟩

end Machine

end Chip8
