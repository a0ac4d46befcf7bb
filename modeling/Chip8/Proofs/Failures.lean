import Chip8.Proofs.Checked

/-! The failures of fetch and execution by class: the exact condition of each, and
that nothing else ever goes wrong. -/

set_option autoImplicit false

namespace Chip8

/-- A computation that ends in a fault of the given class. -/
def Raises {α : Type} (result : Except Fault α) (kind : String) : Prop :=
  ∃ f, result = .error f ∧ f.kind = kind

def Succeeds {α : Type} (result : Except Fault α) : Prop := ∃ a, result = .ok a

namespace State

/-- The instructions that would touch or enter an address outside memory. -/
def LeavesMemory (s : State) (i : Instruction) : Prop :=
  (i.operation = .call ∧ s.stack.depth < 16 ∧ Memory.size ≤ s.pc.toNat) ∨
  (i.operation = .jumpWithOffset ∧ Memory.size ≤ i.nnn.toNat + (s.offset i).toNat) ∨
  (i.operation = .draw ∧ Memory.size < s.index.toNat + i.n.val) ∨
  (i.operation = .decimalDigits ∧ Memory.size < s.index.toNat + 3) ∨
  (i.operation = .storeRegisters ∧ Memory.size < s.index.toNat + i.x.val + 1) ∨
  (i.operation = .loadRegisters ∧ Memory.size < s.index.toNat + i.x.val + 1)

instance (s : State) (i : Instruction) : Decidable (s.LeavesMemory i) :=
  inferInstanceAs (Decidable (_ ∨ _))

theorem raises_execute_iff {s : State} {i : Instruction} {key : Option Key} {kind : String} :
    Raises (s.execute i key) kind ↔ (s.fault? i).map Fault.kind = some kind := by
  simp only [Raises, execute_eq_error_iff, Option.map_eq_some_iff]

theorem kind_rangeFault? (address length : Nat) :
    (rangeFault? address length).map Fault.kind =
      if Memory.size < address + length then some "MemoryAccessError" else none := by
  unfold rangeFault?
  by_cases inside : address + length ≤ Memory.size
  · rw [if_pos inside, if_neg (Nat.not_lt.mpr inside)]
    rfl
  · rw [if_neg inside, if_pos (Nat.lt_of_not_le inside)]
    rfl

/-- The class of the fault of an instruction, condition by condition. -/
theorem kind_fault? (s : State) (i : Instruction) :
    (s.fault? i).map Fault.kind =
      if i.operation = .returnToCaller ∧ s.stack.depth = 0 then some "StackUnderflowError"
      else if i.operation = .call ∧ s.stack.depth = 16 then some "StackOverflowError"
      else if s.LeavesMemory i then some "MemoryAccessError"
      else none := by
  have bound := s.stack.depth_le
  unfold fault?
  cases op : i.operation with
  | returnToCaller =>
    by_cases empty : s.stack.depth = 0 <;> simp [LeavesMemory, op, empty, Fault.kind]
  | call =>
    by_cases full : s.stack.depth = 16
    · simp [full, Fault.kind]
    · have room : s.stack.depth < 16 := by omega
      by_cases outside : Memory.size ≤ s.pc.toNat <;>
        simp [LeavesMemory, op, full, room, outside, Fault.kind]
  | jumpWithOffset =>
    by_cases outside : Memory.size ≤ i.nnn.toNat + (s.offset i).toNat <;>
      simp [LeavesMemory, op, offsetTarget, outside, Fault.kind]
  | draw => simp [LeavesMemory, op, kind_rangeFault?]
  | decimalDigits => simp [LeavesMemory, op, kind_rangeFault?]
  | storeRegisters => simp [LeavesMemory, op, kind_rangeFault?, Nat.add_assoc]
  | loadRegisters => simp [LeavesMemory, op, kind_rangeFault?, Nat.add_assoc]
  | _ => simp [LeavesMemory, op]

/-- No two of the conditions hold together, so each class has its own. -/
theorem kind_conditions (s : State) (i : Instruction) :
    ((s.fault? i).map Fault.kind = some "StackUnderflowError" ↔
      i.operation = .returnToCaller ∧ s.stack.depth = 0) ∧
    ((s.fault? i).map Fault.kind = some "StackOverflowError" ↔
      i.operation = .call ∧ s.stack.depth = 16) ∧
    ((s.fault? i).map Fault.kind = some "MemoryAccessError" ↔ s.LeavesMemory i) ∧
    ((s.fault? i).map Fault.kind = none ↔
      ¬ (i.operation = .returnToCaller ∧ s.stack.depth = 0) ∧
      ¬ (i.operation = .call ∧ s.stack.depth = 16) ∧ ¬ s.LeavesMemory i) := by
  rw [kind_fault?]
  by_cases underflow : i.operation = .returnToCaller ∧ s.stack.depth = 0
  · have inside : ¬ s.LeavesMemory i := by simp [LeavesMemory, underflow.1]
    simp [underflow, inside]
  · by_cases overflow : i.operation = .call ∧ s.stack.depth = 16
    · have inside : ¬ s.LeavesMemory i := by simp [LeavesMemory, overflow]
      simp [overflow, inside]
    · by_cases leaves : s.LeavesMemory i <;> simp [underflow, overflow, leaves]

theorem execute_succeeds_iff {s : State} {i : Instruction} {key : Option Key} :
    Succeeds (s.execute i key) ↔ (s.fault? i).map Fault.kind = none := by
  rw [Succeeds, execute_eq_ok_iff, Option.map_eq_none_iff]

theorem fetch_succeeds_iff {s : State} : Succeeds s.fetch ↔ s.pc.toNat < 0xFFF := by
  rw [Succeeds, fetch_eq]
  by_cases inside : s.pc.toNat + 2 ≤ Memory.size
  · have below : s.pc.toNat < 0xFFF := by
      change s.pc.toNat + 2 ≤ 4096 at inside
      omega
    simp [inside, below]
  · have past : ¬ s.pc.toNat < 0xFFF := by
      change ¬ s.pc.toNat + 2 ≤ 4096 at inside
      omega
    simp [inside, past]

theorem fetch_raises_iff {s : State} :
    Raises s.fetch "MemoryAccessError" ↔ 0xFFF ≤ s.pc.toNat := by
  rw [← Nat.not_lt, ← fetch_succeeds_iff, Raises, Succeeds, fetch_eq]
  by_cases inside : s.pc.toNat + 2 ≤ Memory.size <;> simp [inside, Fault.kind]

/-- The conditions are read off the state and the word. Where none of them holds
there is a next state, and the bounds-checked interpreter reaches the same one: it
finds every table entry and stays inside memory, the registers and the stack. -/
theorem failure_conditions (s : State) (word : Int) (key : Option Key) :
    (Raises s.fetch "MemoryAccessError" ↔ 0xFFF ≤ s.pc.toNat) ∧
    (Raises (s.execute (.ofInt word) key) "StackUnderflowError" ↔
      (Instruction.ofInt word).operation = .returnToCaller ∧ s.stack.depth = 0) ∧
    (Raises (s.execute (.ofInt word) key) "StackOverflowError" ↔
      (Instruction.ofInt word).operation = .call ∧ s.stack.depth = 16) ∧
    (Raises (s.execute (.ofInt word) key) "MemoryAccessError" ↔
      s.LeavesMemory (.ofInt word)) ∧
    (Succeeds s.fetch ↔ s.pc.toNat < 0xFFF) ∧
    (Succeeds (s.execute (.ofInt word) key) ↔
      ¬ ((Instruction.ofInt word).operation = .returnToCaller ∧ s.stack.depth = 0) ∧
      ¬ ((Instruction.ofInt word).operation = .call ∧ s.stack.depth = 16) ∧
      ¬ s.LeavesMemory (.ofInt word)) ∧
    (Checked.fetch s).map (fun fetched => (Instruction.ofInt fetched.1, fetched.2)) =
      s.fetch.mapError .fault ∧
    Checked.execute s word key = (s.execute (.ofInt word) key).mapError .fault := by
  obtain ⟨underflow, overflow, leaves, sound⟩ := s.kind_conditions (.ofInt word)
  exact ⟨fetch_raises_iff, raises_execute_iff.trans underflow, raises_execute_iff.trans overflow,
    raises_execute_iff.trans leaves, fetch_succeeds_iff, execute_succeeds_iff.trans sound,
    Checked.fetch_eq s, Checked.execute_eq s word key⟩

end State

end Chip8
