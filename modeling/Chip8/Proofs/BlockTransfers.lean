import Chip8.Proofs.Sequence
import Chip8.Proofs.Targets

/-! Transfers of V0 up to VX to memory and back. The block that a store leaves is the block
that a load takes, so either undoes the other; and in the classic dialect each store leaves
the index where the next one starts. -/

set_option autoImplicit false

namespace Chip8

open Fallible

namespace Memory
variable {m n : Memory} {start : Nat}

theorem eq_of_read_eq (same : ∀ address, address < size → m.read address = n.read address) :
    m = n := by
  apply Vector.ext
  intro address inside
  have cell := same address inside
  simpa only [read, Vector.getElem?_eq_getElem inside, Option.getD_some] using cell

/-- Bytes that are where they are written leave memory as it is. -/
theorem write_slice (m : Memory) (start length : Nat) :
    m.write start (m.slice start length) = m := by
  apply eq_of_read_eq
  intro address inside
  rw [read_write _ _ _ _ inside, getElem?_slice]
  by_cases within : start ≤ address ∧ address - start < length
  · have place : start + (address - start) = address := by omega
    rw [if_pos within.1, if_pos within.2, place]
    rfl
  · split
    case isTrue above => rw [if_neg (fun below => within ⟨above, below⟩)]; rfl
    case isFalse => rfl

/-- A part of the bytes that were written. -/
theorem slice_write_part {bytes : List UInt8} {skip length : Nat}
    (inside : start + bytes.length ≤ size) (within : skip + length ≤ bytes.length) :
    (m.write start bytes).slice (start + skip) length = (bytes.drop skip).take length := by
  apply List.ext_getElem?
  intro k
  rw [getElem?_slice]
  by_cases below : k < length
  · have bound : skip + k < bytes.length := by omega
    rw [if_pos below, Nat.add_assoc, read_write_add m inside bound,
      List.getElem?_take_of_lt below, List.getElem?_drop, List.getElem?_eq_getElem bound]
  · rw [if_neg below, List.getElem?_take_eq_none (Nat.le_of_not_lt below)]

theorem slice_write_take {bytes : List UInt8} {length : Nat}
    (inside : start + bytes.length ≤ size) (within : length ≤ bytes.length) :
    (m.write start bytes).slice start length = bytes.take length := by
  have first : (m.write start bytes).slice (start + 0) length = (bytes.drop 0).take length :=
    slice_write_part inside (by omega)
  exact first

theorem slice_write {bytes : List UInt8} (inside : start + bytes.length ≤ size) :
    (m.write start bytes).slice start bytes.length = bytes := by
  rw [slice_write_take inside (Nat.le_refl _), List.take_length]

theorem write_append (m : Memory) (start : Nat) (first rest : List UInt8) :
    m.write start (first ++ rest) = (m.write start first).write (start + first.length) rest := by
  induction first generalizing m start with
  | nil => rfl
  | cons byte first ih =>
    rw [List.cons_append, write, ih, write, List.length_cons, Nat.add_right_comm, Nat.add_assoc]

end Memory

namespace Registers
variable (v : Registers) (last : Fin 16)

/-- The loaded registers are the bytes. -/
theorem through_load {bytes : List UInt8} (length : bytes.length = last.val + 1) :
    (v.load bytes).through last = bytes := by
  apply List.ext_getElem?
  intro k
  by_cases within : k < last.val + 1
  · have bound : k < 16 := Nat.lt_of_lt_of_le within last.isLt
    have loaded := (v.load bytes).getElem?_through (r := ⟨k, bound⟩) (Nat.le_of_lt_succ within)
    rw [loaded, read_load, List.getElem?_eq_getElem (length.symm ▸ within), Option.getD_some]
  · rw [List.getElem?_eq_none (by rw [length_through]; omega),
      List.getElem?_eq_none (by rw [length]; omega)]

end Registers

namespace State

section
variable {s t : State} {i : Instruction}

/-- The sum does not wrap, since a transfer ends in memory. -/
theorem toNat_indexAfter {count : Nat} (inside : s.index.toNat + count ≤ Memory.size) :
    (s.indexAfter count).toNat =
      match s.dialect with
      | .classic => s.index.toNat + count
      | .modern => s.index.toNat := by
  have inside : s.index.toNat + count ≤ 4096 := inside
  unfold indexAfter
  cases s.dialect with
  | classic => exact UInt16.toNat_ofNat_of_lt' (Nat.lt_of_le_of_lt inside (by decide))
  | modern => rfl

theorem execute_storeRegisters (stores : i.operation = .storeRegisters)
    (inside : s.index.toNat + (i.x.val + 1) ≤ Memory.size) (key : Option Key) :
    s.execute i key = .ok { s with
      memory := s.memory.write s.index.toNat (s.registers.through i.x)
      index := s.indexAfter (i.x.val + 1) } := by
  unfold execute
  simp only [stores, storeRegisters, Memory.check_of_inside inside, ok_bind]
  rfl

theorem execute_loadRegisters (loads : i.operation = .loadRegisters)
    (inside : s.index.toNat + (i.x.val + 1) ≤ Memory.size) (key : Option Key) :
    s.execute i key = .ok { s with
      registers := s.registers.load (s.memory.slice s.index.toNat (i.x.val + 1))
      index := s.indexAfter (i.x.val + 1) } := by
  unfold execute
  simp only [loads, loadRegisters, Memory.check_of_inside inside, ok_bind]
  rfl

/-- What either transfer leaves: the registers above VX, the memory outside the block, and the
index past the block or at its start. -/
structure Moves (s : State) (i : Instruction) (t : State) : Prop where
  registers : ∀ r, i.x < r → t.registers.read r = s.registers.read r
  memory : ∀ address, address < s.index.toNat ∨ s.index.toNat + i.x.val < address →
    t.memory.read address = s.memory.read address
  index : t.index.toNat =
    match s.dialect with
    | .classic => s.index.toNat + (i.x.val + 1)
    | .modern => s.index.toNat
  index_le : t.index.toNat ≤ 0x1000

theorem index_of_transfer {key : Option Key}
    (transfers : i.operation = .storeRegisters ∨ i.operation = .loadRegisters)
    (inside : s.index.toNat + (i.x.val + 1) ≤ Memory.size) (runs : s.execute i key = .ok t) :
    t.index = s.indexAfter (i.x.val + 1) := by
  obtain stores | loads := transfers
  · rw [execute_storeRegisters stores inside] at runs
    cases runs
    rfl
  · rw [execute_loadRegisters loads inside] at runs
    cases runs
    rfl

theorem moves_of_transfer {key : Option Key}
    (transfers : i.operation = .storeRegisters ∨ i.operation = .loadRegisters)
    (inside : s.index.toNat + (i.x.val + 1) ≤ Memory.size) (runs : s.execute i key = .ok t) :
    s.Moves i t := by
  have index := toNat_indexAfter inside
  rw [← index_of_transfer transfers inside runs] at index
  refine ⟨?_, ?_, index, ?_⟩
  · intro r above
    refine (spares_of_execute runs).registers r ?_
    obtain operation | operation := transfers
    · simp [Instruction.WritesRegister, operation]
    · simpa [Instruction.WritesRegister, operation] using above
  · intro address outside
    refine memory_of_leaves (leaves_of_execute runs) ?_
    obtain operation | operation := transfers
    · simp only [Instruction.StoresTo, operation]
      omega
    · simp [Instruction.StoresTo, operation]
  · have inside : s.index.toNat + (i.x.val + 1) ≤ 4096 := inside
    rw [index]
    split <;> omega

end

/-! ## There and back -/

section
variable {s t : State} {i : Instruction}

/-- From a state that has the block of a store at the same index, and any registers. -/
theorem load_back (loads : i.operation = .loadRegisters)
    (inside : s.index.toNat + (i.x.val + 1) ≤ Memory.size) (index : t.index = s.index)
    (memory : t.memory = s.memory.write s.index.toNat (s.registers.through i.x))
    (key : Option Key) :
    ∃ back, t.execute i key = .ok back ∧
      ∀ r, r ≤ i.x → back.registers.read r = s.registers.read r := by
  refine ⟨_, execute_loadRegisters loads (by rw [index]; exact inside) key, ?_⟩
  intro r within
  have length := s.registers.length_through i.x
  have block : t.memory.slice t.index.toNat (i.x.val + 1) = s.registers.through i.x := by
    rw [memory, index, ← length]
    exact Memory.slice_write (length.symm ▸ inside)
  simp only [block, Registers.read_load, Registers.getElem?_through _ within, Option.getD_some]

/-- From a state that has the block in its registers, and otherwise the same memory. -/
theorem store_back (stores : i.operation = .storeRegisters)
    (inside : s.index.toNat + (i.x.val + 1) ≤ Memory.size) (index : t.index = s.index)
    (memory : t.memory = s.memory)
    (registers : t.registers = s.registers.load (s.memory.slice s.index.toNat (i.x.val + 1)))
    (key : Option Key) :
    ∃ back, t.execute i key = .ok back ∧ back.memory = s.memory := by
  refine ⟨_, execute_storeRegisters stores (by rw [index]; exact inside) key, ?_⟩
  have length := s.memory.length_slice s.index.toNat (i.x.val + 1)
  have block : t.registers.through i.x = s.memory.slice s.index.toNat (i.x.val + 1) := by
    rw [registers, Registers.through_load _ _ length]
  simp only [block, memory, index]
  exact Memory.write_slice _ _ _

end

/-! ## One block after another -/

/-- The number of bytes that some stores fill. -/
def extent : List Instruction → Nat
  | [] => 0
  | i :: rest => i.x.val + 1 + extent rest

/-- The bytes that some stores take from the registers. -/
def filling (s : State) (blocks : List Instruction) : List UInt8 :=
  blocks.flatMap fun i => s.registers.through i.x

/-- The state after some stores in the classic dialect: one block behind the other. -/
structure Fills (s : State) (blocks : List Instruction) (t : State) : Prop where
  memory : t.memory = s.memory.write s.index.toNat (s.filling blocks)
  index : t.index.toNat = s.index.toNat + extent blocks
  registers : t.registers = s.registers
  dialect : t.dialect = s.dialect

section
variable {s t : State} {i : Instruction} {blocks : List Instruction} {key : Option Key}

theorem extent_append (first rest : List Instruction) :
    extent (first ++ rest) = extent first + extent rest := by
  induction first with
  | nil => exact (Nat.zero_add _).symm
  | cons i first ih => simp only [List.cons_append, extent, ih, Nat.add_assoc]

theorem length_filling (s : State) (blocks : List Instruction) :
    (s.filling blocks).length = extent blocks := by
  induction blocks with
  | nil => rfl
  | cons i blocks ih =>
    rw [filling, List.flatMap_cons, List.length_append, Registers.length_through, extent]
    exact congrArg _ ih

theorem Fills.store (classic : s.dialect = .classic) (fills : s.Fills blocks t)
    (stores : i.operation = .storeRegisters)
    (inside : s.index.toNat + extent (blocks ++ [i]) ≤ Memory.size) :
    ∃ u, t.execute i key = .ok u ∧ s.Fills (blocks ++ [i]) u := by
  have single : extent [i] = i.x.val + 1 := Nat.add_zero _
  rw [extent_append, single, ← Nat.add_assoc, ← fills.index] at inside
  -- The next block starts where this one ends, so the bytes so far only grow at their end.
  have index := toNat_indexAfter inside
  rw [fills.dialect, classic] at index
  refine ⟨_, execute_storeRegisters stores inside key, ?_, ?_, fills.registers, fills.dialect⟩
  · have last : s.filling [i] = s.registers.through i.x := List.append_nil _
    have whole : s.filling (blocks ++ [i]) = s.filling blocks ++ s.filling [i] :=
      List.flatMap_append
    rw [whole, last, Memory.write_append, length_filling, ← fills.index, ← fills.memory,
      ← fills.registers]
  · rw [extent_append, single, ← Nat.add_assoc, ← fills.index]
    exact index

theorem executeAll_stores (classic : s.dialect = .classic)
    (stores : ∀ i ∈ blocks, i.operation = .storeRegisters)
    (inside : s.index.toNat + extent blocks ≤ Memory.size) (key : Option Key) :
    ∃ t, s.executeAll key blocks = .ok t ∧ s.Fills blocks t := by
  refine executeAll_kept (fun past t => s.Fills past t) ⟨rfl, rfl, rfl, rfl⟩ ?_
  intro past i rest t split fills
  have member : i ∈ blocks := split ▸ List.mem_append_right past List.mem_cons_self
  refine fills.store classic (stores i member) ?_
  rw [← split, List.append_cons, extent_append] at inside
  omega

theorem getElem?_filling {before after : List Instruction} {r : Fin 16} (within : r ≤ i.x) :
    (s.filling (before ++ i :: after))[extent before + r.val]? = some (s.registers.read r) := by
  have split : s.filling (before ++ i :: after) =
      s.filling before ++ (s.registers.through i.x ++ s.filling after) := by
    rw [filling, List.flatMap_append, List.flatMap_cons]
    rfl
  have inside : r.val < (s.registers.through i.x).length := by
    rw [Registers.length_through]
    exact Nat.lt_succ_of_le within
  rw [split, ← length_filling s before, List.getElem?_append_right (Nat.le_add_right _ _),
    Nat.add_sub_cancel_left, List.getElem?_append_left inside,
    Registers.getElem?_through _ within]

theorem Fills.read (fills : s.Fills blocks t) {before after : List Instruction}
    (split : blocks = before ++ i :: after)
    (inside : s.index.toNat + extent blocks ≤ Memory.size) {r : Fin 16} (within : r ≤ i.x) :
    t.memory.read (s.index.toNat + extent before + r.val) = s.registers.read r := by
  have within' : r.val ≤ i.x.val := within
  have bound : s.index.toNat + extent before + r.val < Memory.size := by
    have single : extent (i :: after) = i.x.val + 1 + extent after := rfl
    rw [split, extent_append, single] at inside
    omega
  have place : s.index.toNat + extent before + r.val - s.index.toNat = extent before + r.val := by
    omega
  rw [fills.memory, Memory.read_write _ _ _ _ bound, if_pos (by omega), place, split,
    getElem?_filling within, Option.getD_some]

theorem Fills.read_of_outside (fills : s.Fills blocks t) {address : Nat}
    (outside : address < s.index.toNat ∨ s.index.toNat + extent blocks ≤ address) :
    t.memory.read address = s.memory.read address := by
  rw [fills.memory]
  apply Memory.read_write_of_outside
  rw [length_filling]
  exact outside

end

/-- The two transfers with the same X, and any number of stores in a row. Between a store and
the load the registers may become anything. -/
theorem transfers_invert {s : State} {store load : Instruction} (key : Option Key)
    (stores : store.operation = .storeRegisters) (loads : load.operation = .loadRegisters)
    (same : load.x = store.x) (inside : s.index.toNat + (store.x.val + 1) ≤ Memory.size) :
    (∃ stored, s.execute store key = .ok stored ∧ s.Moves store stored ∧
      ∀ registers, ∃ back,
        State.execute { stored with registers, index := s.index } load key = .ok back ∧
        ∀ r, r ≤ store.x → back.registers.read r = s.registers.read r) ∧
    (∃ loaded, s.execute load key = .ok loaded ∧ s.Moves load loaded ∧
      ∃ back, State.execute { loaded with index := s.index } store key = .ok back ∧
        back.memory = s.memory) ∧
    (s.dialect = .classic → ∀ blocks, (∀ i ∈ blocks, i.operation = .storeRegisters) →
      s.index.toNat + extent blocks ≤ Memory.size →
      ∃ t, s.executeAll key blocks = .ok t ∧ t.index.toNat = s.index.toNat + extent blocks ∧
        (∀ before i after, blocks = before ++ i :: after → ∀ r, r ≤ i.x →
          t.memory.read (s.index.toNat + extent before + r.val) = s.registers.read r) ∧
        ∀ address, address < s.index.toNat ∨ s.index.toNat + extent blocks ≤ address →
          t.memory.read address = s.memory.read address) := by
  have within : s.index.toNat + (load.x.val + 1) ≤ Memory.size := same ▸ inside
  refine ⟨?there, ?back, ?row⟩
  case there =>
    have runs := execute_storeRegisters stores inside key
    refine ⟨_, runs, moves_of_transfer (.inl stores) inside runs, ?_⟩
    intro registers
    rw [← same]
    refine load_back (s := s) loads within ?index ?memory key
    case index => rfl
    case memory => rw [same]
  case back =>
    have runs := execute_loadRegisters loads within key
    refine ⟨_, runs, moves_of_transfer (.inr loads) within runs, ?_⟩
    refine store_back stores inside ?index ?memory ?registers key
    case index => rfl
    case memory => rfl
    case registers => rw [same]
  case row =>
    intro classic blocks each fits
    obtain ⟨t, ran, fills⟩ := executeAll_stores classic each fits key
    refine ⟨t, ran, fills.index, ?_, ?_⟩
    · intro before i after split r bound
      exact fills.read split fits bound
    · intro address outside
      exact fills.read_of_outside outside

/-- The index is sixteen bytes from the end of memory. -/
def brimming : State :=
  { initial ⟨0, 0⟩ .classic with
    index := 0xFF0
    registers := Vector.ofFn fun r => UInt8.ofNat (16 * r.val + 1) }

theorem transfers_invert_brimming :
    let store := Instruction.ofInt 0xFF55
    let load := Instruction.ofInt 0xFF65
    let blocks := [Instruction.ofInt 0xF355, Instruction.ofInt 0xFB55]
    (∃ stored, brimming.execute store none = .ok stored ∧ stored.index.toNat = 0x1000 ∧
      ∃ back, State.execute { stored with registers := .zero, index := brimming.index } load none =
          .ok back ∧ back.registers.read 15 = brimming.registers.read 15) ∧
    (∃ loaded, brimming.execute load none = .ok loaded ∧
      ∃ back, State.execute { loaded with index := brimming.index } store none = .ok back ∧
        back.memory = brimming.memory) ∧
    ∃ t, brimming.executeAll none blocks = .ok t ∧ t.index.toNat = 0x1000 ∧
      t.memory.read 0xFF4 = brimming.registers.read 0 := by
  intro store load blocks
  have stores : store.operation = .storeRegisters := by decide
  have loads : load.operation = .loadRegisters := by decide
  have inside : brimming.index.toNat + (store.x.val + 1) ≤ Memory.size := by decide
  obtain ⟨⟨stored, runs, moves, restores⟩, ⟨loaded, loading, -, again⟩, row⟩ :=
    transfers_invert none stores loads (by decide) inside
  have each : ∀ i ∈ blocks, i.operation = .storeRegisters := by
    refine List.forall_mem_cons.mpr ⟨by decide, List.forall_mem_singleton.mpr (by decide)⟩
  obtain ⟨t, ran, index, fills, -⟩ := row rfl blocks each (by decide)
  obtain ⟨back, returns, values⟩ := restores .zero
  refine ⟨⟨stored, runs, moves.index.trans (by decide), back, returns, values 15 (by decide)⟩,
    ⟨loaded, loading, again⟩, t, ran, index, ?_⟩
  exact fills [.ofInt 0xF355] (.ofInt 0xFB55) [] rfl 0 (by decide)

end State

end Chip8
