import Chip8.Proofs.Targets

/-! The arithmetic of the 8XYN family on the register file. Result and flag together account
for the whole sum, difference or shift of the two bytes, whatever registers X, Y and F are. -/

set_option autoImplicit false

namespace Chip8

namespace Alu

/-- The last digit of the words of a function. The first one is 8. -/
def digit : Alu → Nat
  | set => 0x0
  | or => 0x1
  | and => 0x2
  | xor => 0x3
  | add => 0x4
  | subtract => 0x5
  | shiftRight => 0x6
  | subtractFrom => 0x7
  | shiftLeft => 0xE

/-- The result and the flag that belong to two bytes and, for a shift, to its operand. An
addition flags its carry, a subtraction that it did not borrow, and a shift the bit that it
pushes out. -/
inductive Law (a b operand : Nat) : Alu → Int → Option Int → Prop where
  | set : Law a b operand .set b none
  | or : Law a b operand .or (a ||| b : Nat) none
  | and : Law a b operand .and (a &&& b : Nat) none
  | xor : Law a b operand .xor (a ^^^ b : Nat) none
  | add {result raised : Int} (sum : 256 * raised + result = a + b) :
      Law a b operand .add result (some raised)
  | subtract {result raised : Int} (difference : (a : Int) - b = result - 256 * (1 - raised)) :
      Law a b operand .subtract result (some raised)
  | subtractFrom {result raised : Int} (difference : (b : Int) - a = result - 256 * (1 - raised)) :
      Law a b operand .subtractFrom result (some raised)
  | shiftRight {result raised : Int} (halves : 2 * result + raised = operand) :
      Law a b operand .shiftRight result (some raised)
  | shiftLeft {result raised : Int} (double : 256 * raised + result = 2 * operand) :
      Law a b operand .shiftLeft result (some raised)

/-- A byte, with a bit if there is a flag, that obey the law of a function. -/
structure Lawful (f : Alu) (a b operand : Nat) (written : Int × Option Int) : Prop where
  byte : 0 ≤ written.1 ∧ written.1 < 256
  bit : ∀ raised, written.2 = some raised → raised = 0 ∨ raised = 1
  law : f.Law a b operand written.1 written.2

theorem flag_decide (p : Prop) [Decidable p] : flag (decide p) = if p then 1 else 0 := by
  by_cases holds : p
  · rw [decide_eq_true holds, if_pos holds]
    rfl
  · rw [decide_eq_false holds, if_neg holds]
    rfl

section
variable {a b operand : Nat} {f : Alu}

theorem lawful_of_flag {result raised : Int} (byte : 0 ≤ result ∧ result < 256)
    (bit : raised = 0 ∨ raised = 1) (law : f.Law a b operand result (some raised)) :
    f.Lawful a b operand (result, some raised) := by
  refine ⟨byte, ?_, law⟩
  intro other same
  cases same
  exact bit

theorem lawful_of_nat {result : Nat} (byte : result < 256)
    (law : f.Law a b operand result none) : f.Lawful a b operand (result, none) := by
  refine ⟨⟨Int.natCast_nonneg result, Int.ofNat_lt.mpr byte⟩, ?_, law⟩
  intro raised same
  cases same

/-- The numbers computed from bytes are never cut off on the way into a register. -/
theorem lawful_apply (f : Alu) (ha : a < 256) (hb : b < 256) (ho : operand < 256) :
    f.Lawful a b operand (f.apply (if f.isShift then operand else a : Nat) b) := by
  cases f with
  | set => exact lawful_of_nat hb .set
  | or => exact lawful_of_nat (Nat.or_lt_two_pow (n := 8) ha hb) .or
  | and => exact lawful_of_nat (Nat.and_lt_two_pow a (n := 8) hb) .and
  | xor => exact lawful_of_nat (Nat.xor_lt_two_pow (n := 8) ha hb) .xor
  | add =>
    simp only [apply, flag_decide, isShift, Bool.false_eq_true, if_false, byte]
    exact lawful_of_flag (by omega) (by omega) (.add (by omega))
  | subtract =>
    simp only [apply, flag_decide, isShift, Bool.false_eq_true, if_false, byte]
    exact lawful_of_flag (by omega) (by omega) (.subtract (by omega))
  | subtractFrom =>
    simp only [apply, flag_decide, isShift, Bool.false_eq_true, if_false, byte]
    exact lawful_of_flag (by omega) (by omega) (.subtractFrom (by omega))
  | shiftRight =>
    simp only [apply, isShift, if_true]
    exact lawful_of_flag (by omega) (by omega) (.shiftRight (by omega))
  | shiftLeft =>
    simp only [apply, isShift, if_true, byte]
    exact lawful_of_flag (by omega) (by omega) (.shiftLeft (by omega))

end

end Alu

theorem Instruction.operation_of_digit {i : Instruction} {f : Alu} (opcode : i.opcode = 8)
    (digit : i.n.val = f.digit) : i.operation = .alu f := by
  have known := i.operation_eq_ofFields?
  rw [opcode, digit] at known
  cases f <;> exact (Option.some.inj known).symm

/-- The registers after a result for VX and then a flag for VF, if there is one. -/
structure Receives (before : Registers) (x : Fin 16) (written : Int × Option Int)
    (after : Registers) : Prop where
  flag : ∀ raised, written.2 = some raised → ((after.read Registers.flag).toNat : Int) = raised
  result : x ≠ Registers.flag ∨ written.2 = none → ((after.read x).toNat : Int) = written.1
  others : ∀ r, r ≠ x → r ≠ Registers.flag ∨ written.2 = none → after.read r = before.read r

namespace State

section
variable {s : State} {i : Instruction} {f : Alu}

theorem toNat_shiftOperand (s : State) (i : Instruction) :
    (s.shiftOperand i).toNat =
      match s.dialect with
      | .classic => (s.registers.read i.y).toNat
      | .modern => (s.registers.read i.x).toNat := by
  unfold shiftOperand
  cases s.dialect <;> rfl

theorem toNat_ofNat_of_byte {value : Int} (byte : 0 ≤ value ∧ value < 256) :
    ((UInt8.ofNat value.toNat).toNat : Int) = value := by
  rw [UInt8.toNat_ofNat']
  omega

theorem receives_applyAlu {operand : UInt8} {written : Int × Option Int}
    (shifted : operand = if f.isShift then s.shiftOperand i else s.registers.read i.x)
    (applied : f.apply operand.toNat (s.registers.read i.y).toNat = written)
    (byte : 0 ≤ written.1 ∧ written.1 < 256)
    (bit : ∀ raised, written.2 = some raised → raised = 0 ∨ raised = 1) :
    Receives s.registers i.x written (s.applyAlu i f).registers := by
  obtain ⟨result, flag⟩ := written
  -- The flag is written last, so it is what remains if VX is VF.
  rw [registers_applyAlu shifted applied]
  cases flag with
  | none =>
    refine ⟨by simp, ?_, ?_⟩
    · intro _
      rw [Registers.read_write_self, toNat_ofNat_of_byte byte]
    · intro r other _
      exact Registers.read_write_of_ne _ _ other
  | some raised =>
    have small : 0 ≤ raised ∧ raised < 256 := by
      have := bit raised rfl
      omega
    refine ⟨?_, ?_, ?_⟩
    · intro _ same
      cases same
      rw [Registers.read_write_self, toNat_ofNat_of_byte small]
    · rintro (apart | none)
      · rw [Registers.read_write_of_ne _ _ apart, Registers.read_write_self,
          toNat_ofNat_of_byte byte]
      · cases none
    · rintro r other (apart | none)
      · rw [Registers.read_write_of_ne _ _ apart, Registers.read_write_of_ne _ _ other]
      · cases none

/-- The operands are the values from before, also where a target is one of their registers. -/
theorem alu_laws (key : Option Key) (opcode : i.opcode = 8) (digit : i.n.val = f.digit) :
    let a := (s.registers.read i.x).toNat
    let b := (s.registers.read i.y).toNat
    let operand :=
      match s.dialect with
      | .classic => b
      | .modern => a
    let written := f.apply (if f.isShift then operand else a : Nat) b
    f.Lawful a b operand written ∧
    ∃ registers, s.execute i key = .ok { s with registers } ∧
      Receives s.registers i.x written registers := by
  intro a b operand written
  have shifts : (s.shiftOperand i).toNat = operand := toNat_shiftOperand s i
  have lawful : f.Lawful a b operand written :=
    Alu.lawful_apply f (UInt8.toNat_lt _) (UInt8.toNat_lt _) (shifts ▸ UInt8.toNat_lt _)
  have first : (if f.isShift then operand else a) =
      (if f.isShift then s.shiftOperand i else s.registers.read i.x).toNat := by
    rw [apply_ite UInt8.toNat, shifts]
  have receives : Receives s.registers i.x written (s.applyAlu i f).registers :=
    receives_applyAlu rfl (by rw [← first]) lawful.byte lawful.bit
  refine ⟨lawful, _, ?_, receives⟩
  obtain ⟨registers, same⟩ := s.applyAlu_eq i f
  simp only [execute, Instruction.operation_of_digit opcode digit, same]

end

/-- VF is X, Y and the flag of an addition. -/
def flagged : State :=
  { initial ⟨0, 0⟩ .classic with registers := Registers.zero.write Registers.flag 200 }

theorem alu_laws_flagged :
    let add := Instruction.ofInt 0x8FF4
    add.opcode = 8 ∧ add.n.val = Alu.add.digit ∧
    ∃ registers, flagged.execute add none = .ok { flagged with registers } ∧
      (registers.read Registers.flag).toNat = 1 ∧ registers.read 3 = flagged.registers.read 3 := by
  intro add
  have opcode : add.opcode = 8 := by decide
  have digit : add.n.val = Alu.add.digit := by decide
  obtain ⟨-, registers, runs, receives⟩ := alu_laws (s := flagged) none opcode digit
  have raised := receives.flag 1 (by decide)
  exact ⟨opcode, digit, registers, runs, Int.ofNat_inj.mp raised,
    receives.others 3 (by decide) (.inl (by decide))⟩

end State

end Chip8
