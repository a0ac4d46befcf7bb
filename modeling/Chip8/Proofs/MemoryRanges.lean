import Chip8.Proofs.Failures
import Chip8.Proofs.Sequence

/-! Ranges of memory, byte by byte. A fetch and every instruction that refers to memory from
the index on are refused when a byte that they refer to lies outside memory, and only then,
with one exception: a draw of no rows refers to no byte, and still its start is compared with
the end of memory. -/

set_option autoImplicit false

namespace Chip8

namespace Memory

/-- Some byte of a range lies outside memory. -/
def Leaves (address length : Int) : Prop :=
  ∃ byte : Int, address ≤ byte ∧ byte < address + length ∧ (byte < 0 ∨ (size : Int) ≤ byte)

section
variable {address length : Int}

/-- Where there is a byte at all, the two ends decide. -/
theorem leaves_iff (nonempty : 0 < length) :
    Leaves address length ↔ address < 0 ∨ (size : Int) < address + length := by
  constructor
  · rintro ⟨byte, above, below, low | high⟩
    · exact .inl (Int.lt_of_le_of_lt above low)
    · exact .inr (Int.lt_of_le_of_lt high below)
  · rintro (low | high)
    · exact ⟨address, Int.le_refl _, Int.lt_add_of_pos_right _ nonempty, .inl low⟩
    · exact ⟨address + length - 1, by omega, by omega, .inr (by omega)⟩

theorem not_leaves_empty (empty : length ≤ 0) : ¬ Leaves address length := by
  rintro ⟨byte, above, below, -⟩
  omega

theorem check_eq_error_iff :
    (∃ f, check address length = .error f) ↔ address < 0 ∨ (size : Int) < address + length := by
  unfold check
  split
  case isTrue outside => exact ⟨fun _ => outside, fun _ => ⟨_, rfl⟩⟩
  case isFalse inside => exact ⟨nofun, fun outside => absurd outside inside⟩

/-- The exact difference between the bytes of a range and its two ends. -/
theorem check_refuses_iff :
    (∃ f, check address length = .error f) ↔
      Leaves address length ∨
        length ≤ 0 ∧ (address < 0 ∨ (size : Int) < address + length) := by
  rw [check_eq_error_iff]
  by_cases empty : length ≤ 0
  · have none : ¬ Leaves address length := not_leaves_empty empty
    simp only [none, empty, true_and, false_or]
  · rw [leaves_iff (Int.not_le.mp empty)]
    simp only [empty, false_and, or_false]

end

end Memory

/-- The number of bytes from the index on that an instruction refers to. -/
def Instruction.span? (i : Instruction) : Option Nat :=
  match i.operation with
  | .draw => some i.n.val
  | .decimalDigits => some 3
  | .storeRegisters | .loadRegisters => some (i.x.val + 1)
  | _ => none

namespace State

section
variable {s : State} {i : Instruction} {length : Nat} {key : Option Key}

theorem fault?_of_span (refers : i.span? = some length) :
    s.fault? i = rangeFault? s.index.toNat length := by
  unfold Instruction.span? at refers
  unfold fault?
  cases operation : i.operation <;> simp only [operation] at refers ⊢
  case draw | decimalDigits | storeRegisters | loadRegisters =>
    cases refers
    rfl
  all_goals cases refers

theorem raises_of_span (refers : i.span? = some length) :
    Raises (s.execute i key) "MemoryAccessError" ↔ Memory.size < s.index.toNat + length := by
  rw [raises_execute_iff, fault?_of_span refers, kind_rangeFault?]
  split
  case isTrue outside => exact ⟨fun _ => outside, fun _ => rfl⟩
  case isFalse inside => exact ⟨nofun, fun outside => absurd outside inside⟩

/-- Every other instruction that refers to memory refers to a byte. -/
theorem draws_nothing_of_span (refers : i.span? = some 0) : i.operation = .draw ∧ i.n = 0 := by
  unfold Instruction.span? at refers
  cases operation : i.operation <;> simp only [operation] at refers
  case draw => exact ⟨rfl, Fin.ext (Option.some.inj refers)⟩
  all_goals cases refers

theorem fetch_refused_iff :
    Raises s.fetch "MemoryAccessError" ↔ Memory.Leaves s.pc.toNat 2 := by
  have pc : 0 ≤ (s.pc.toNat : Int) := Int.natCast_nonneg _
  rw [fetch_raises_iff, Memory.leaves_iff (by decide)]
  change _ ↔ _ ∨ (4096 : Int) < s.pc.toNat + 2
  omega

theorem execute_refused_iff (refers : i.span? = some length) (nonempty : 0 < length) :
    Raises (s.execute i key) "MemoryAccessError" ↔ Memory.Leaves s.index.toNat length := by
  have index : 0 ≤ (s.index.toNat : Int) := Int.natCast_nonneg _
  rw [raises_of_span refers, Memory.leaves_iff (Int.natCast_pos.mpr nonempty)]
  omega

end

/-- The last part is about the draw of no rows. -/
theorem refused_iff_leaves (s : State) (key : Option Key) :
    (∀ address length : Int, (∃ f, Memory.check address length = .error f) ↔
      Memory.Leaves address length ∨
        length ≤ 0 ∧ (address < 0 ∨ (Memory.size : Int) < address + length)) ∧
    (Raises s.fetch "MemoryAccessError" ↔ Memory.Leaves s.pc.toNat 2) ∧
    (∀ (i : Instruction) (length : Nat), i.span? = some length → 0 < length →
      (Raises (s.execute i key) "MemoryAccessError" ↔ Memory.Leaves s.index.toNat length)) ∧
    ∀ i : Instruction, i.span? = some 0 →
      i.operation = .draw ∧ i.n = 0 ∧ ¬ Memory.Leaves s.index.toNat 0 ∧
        (Raises (s.execute i key) "MemoryAccessError" ↔ Memory.size < s.index.toNat) := by
  refine ⟨fun _ _ => Memory.check_refuses_iff, fetch_refused_iff, ?_, ?_⟩
  · intro i length refers nonempty
    exact execute_refused_iff refers nonempty
  · intro i refers
    obtain ⟨operation, rows⟩ := draws_nothing_of_span refers
    exact ⟨operation, rows, Memory.not_leaves_empty (Int.le_refl 0), raises_of_span refers⟩

/-- Three rows from two bytes before the end of memory: the last one lies outside. -/
theorem refused_iff_leaves_brink :
    let s := { initial ⟨0, 0⟩ .classic with index := 0xFFE }
    Memory.Leaves s.index.toNat 3 ∧ Raises (s.execute (.ofInt 0xD013) none) "MemoryAccessError" ∧
      ¬ Raises (s.execute (.ofInt 0xD012) none) "MemoryAccessError" := by
  intro s
  obtain ⟨-, -, refused, -⟩ := refused_iff_leaves s none
  have leaves : Memory.Leaves s.index.toNat 3 := ⟨4096, by decide, by decide, .inr (by decide)⟩
  have stays : ¬ Memory.Leaves s.index.toNat 2 := by
    rw [Memory.leaves_iff (by decide)]
    decide
  refine ⟨leaves, (refused (.ofInt 0xD013) 3 (by decide) (by decide)).mpr leaves, ?_⟩
  exact mt (refused (.ofInt 0xD012) 2 (by decide) (by decide)).mp stays

/-- With the index beyond memory a draw of no rows is refused, although it refers to no byte.
The index gets there by an addition. -/
theorem empty_draw_refused :
    ∃ t, (initial ⟨0, 0⟩ .classic).executeAll none
        [.ofInt 0x60FF, .ofInt 0xAFFF, .ofInt 0xF01E] = .ok t ∧
      (Instruction.ofInt 0xD000).span? = some 0 ∧
      ¬ (Raises (t.execute (.ofInt 0xD000) none) "MemoryAccessError" ↔
        Memory.Leaves t.index.toNat 0) := by
  have refers : (Instruction.ofInt 0xD000).span? = some 0 := by decide
  have reached : ((initial ⟨0, 0⟩ .classic).executeAll none
      [.ofInt 0x60FF, .ofInt 0xAFFF, .ofInt 0xF01E]).toOption.map (fun t => t.index.toNat) =
        some 0x10FE := by decide +kernel
  obtain ⟨t, ran, index⟩ := Option.map_eq_some_iff.mp reached
  refine ⟨t, Fallible.toOption_eq_some_iff.mp ran, refers, ?_⟩
  intro lawful
  refine Memory.not_leaves_empty (Int.le_refl 0) (lawful.mp ((raises_of_span refers).mpr ?_))
  rw [index]
  decide

end State

end Chip8
