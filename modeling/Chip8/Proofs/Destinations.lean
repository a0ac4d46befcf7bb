import Chip8.Proofs.Targets
import Chip8.Proofs.WellFormed

/-! The address where control goes after a cycle, for every operation. A jump and a call go
to the address they name, a return to the newest one on the stack, a skip over one
instruction if its condition holds; a wait without a key stays. Everything else goes on to
the next instruction. The addresses are sums of natural numbers, none of which wraps. -/

set_option autoImplicit false

namespace Chip8

open Fallible

/-- The newest address in use. -/
def CallStack.top (s : CallStack) : UInt16 :=
  s.slots.get ⟨s.depth - 1, Nat.lt_of_le_of_lt (Nat.sub_le_sub_right s.depth_le 1) (by decide)⟩

theorem CallStack.top_of_pop {s t : CallStack} {address : UInt16}
    (popped : s.pop = .ok (address, t)) : address = s.top := by
  obtain ⟨slots, depth, le⟩ := s
  cases depth with
  | zero => cases popped
  | succ depth =>
    cases popped
    rfl

namespace Operation

def isSkip : Operation → Bool
  | skipIfEqualImmediate | skipIfNotEqualImmediate | skipIfEqualRegister
  | skipIfNotEqualRegister | skipIfKey | skipIfNotKey => true
  | _ => false

end Operation

/-- A register skip ends in a zero digit, or it is no instruction. -/
theorem Instruction.unsupported_of_digit {i : Instruction}
    (opcode : i.opcode = 5 ∨ i.opcode = 9) (digit : i.n ≠ 0) : i.operation = .unsupported := by
  have known := i.operation_eq_ofFields?
  have other : ¬ (i.n.val : Int) = 0 := by
    intro zero
    exact digit (Fin.ext (Int.ofNat_inj.mp zero))
  obtain opcode | opcode := opcode
  all_goals
    rw [opcode] at known
    change some (if (i.n.val : Int) = 0 then _ else Operation.unsupported) = _ at known
    rw [if_neg other] at known
    exact (Option.some.inj known).symm

namespace State

/-- The instruction at the program counter. -/
def upcoming (s : State) : Instruction :=
  .ofBytes (s.memory.read s.pc.toNat) (s.memory.read (s.pc.toNat + 1))

/-- The condition of a skip holds. Without a key neither of the two conditions on it does. -/
def Skips (s : State) (i : Instruction) (key : Option Key) : Prop :=
  let vx := (s.registers.read i.x).toNat
  let vy := (s.registers.read i.y).toNat
  (i.operation = .skipIfEqualImmediate ∧ vx = i.nn.toNat) ∨
  (i.operation = .skipIfNotEqualImmediate ∧ vx ≠ i.nn.toNat) ∨
  (i.operation = .skipIfEqualRegister ∧ vx = vy) ∨
  (i.operation = .skipIfNotEqualRegister ∧ vx ≠ vy) ∨
  (i.operation = .skipIfKey ∧ ∃ k, key = some k ∧ (vx : Int) = k) ∨
  (i.operation = .skipIfNotKey ∧ ∃ k, key = some k ∧ (vx : Int) ≠ k)

instance (s : State) (i : Instruction) (key : Option Key) : Decidable (s.Skips i key) :=
  inferInstanceAs (Decidable (_ ∨ _))

/-- The address of the instruction that follows an instruction at the program counter. -/
def destination (s : State) (i : Instruction) (key : Option Key) : Nat :=
  match i.operation with
  | .jump | .call => i.nnn.toNat
  | .returnToCaller => s.stack.top.toNat
  | .jumpWithOffset => s.offsetTarget i
  | .waitForKey => if key = none then s.pc.toNat else s.pc.toNat + 2
  | _ => if s.Skips i key then s.pc.toNat + 4 else s.pc.toNat + 2

section
variable {s t fetched : State} {i : Instruction} {key : Option Key}

theorem eq_upcoming_of_fetch (fetch : s.fetch = .ok (i, fetched)) : i = s.upcoming := by
  have inside := (fetch_eq_ok fetch).1
  rw [fetch_eq, if_pos inside] at fetch
  cases fetch
  rfl

theorem skips_of_skipIfKey (operation : i.operation = .skipIfKey) :
    s.Skips i key ↔ ∃ k, key = some k ∧ ((s.registers.read i.x).toNat : Int) = k := by
  simp only [Skips, operation, reduceCtorEq, false_and, true_and, false_or, or_false]

theorem skips_of_skipIfNotKey (operation : i.operation = .skipIfNotKey) :
    s.Skips i key ↔ ∃ k, key = some k ∧ ((s.registers.read i.x).toNat : Int) ≠ k := by
  simp only [Skips, operation, reduceCtorEq, false_and, true_and, false_or]

/-- A skip always has a next state. -/
theorem execute_skip (skip : i.operation.isSkip = true) :
    s.execute i key = .ok (s.skipIf (decide (s.Skips i key))) := by
  have taken {condition : Bool} (same : condition = true ↔ s.Skips i key) :
      .ok (s.skipIf condition) =
        (.ok (s.skipIf (decide (s.Skips i key))) : Except Fault State) := by
    rw [Bool.eq_iff_iff.mpr (same.trans decide_eq_true_iff.symm)]
  unfold execute
  cases operation : i.operation <;> simp only [operation, Operation.isSkip] at skip
  case skipIfEqualImmediate => exact taken (by simp [Skips, operation, UInt8.toNat_inj])
  case skipIfNotEqualImmediate => exact taken (by simp [Skips, operation, UInt8.toNat_inj])
  case skipIfEqualRegister => exact taken (by simp [Skips, operation, UInt8.toNat_inj])
  case skipIfNotEqualRegister => exact taken (by simp [Skips, operation, UInt8.toNat_inj])
  case skipIfKey =>
    refine taken ?_
    rw [skips_of_skipIfKey operation]
    simp only [Option.any_eq_true, beq_iff_eq]
  case skipIfNotKey =>
    refine taken ?_
    rw [skips_of_skipIfNotKey operation]
    simp only [Option.any_eq_true, bne_iff_ne]
  all_goals cases skip

theorem isSkip_of_skips (skips : s.Skips i key) : i.operation.isSkip = true := by
  obtain ⟨operation, -⟩ | ⟨operation, -⟩ | ⟨operation, -⟩ | ⟨operation, -⟩ | ⟨operation, -⟩ |
    ⟨operation, -⟩ := skips
  all_goals
    rw [operation]
    rfl

theorem destination_of_skip (skip : i.operation.isSkip = true) :
    s.destination i key = s.pc.toNat + 2 + if s.Skips i key then 2 else 0 := by
  have onward : s.destination i key =
      if s.Skips i key then s.pc.toNat + 4 else s.pc.toNat + 2 := by
    unfold destination
    cases operation : i.operation <;> simp only [operation, Operation.isSkip] at skip ⊢
    all_goals cases skip
  rw [onward]
  split <;> rfl

theorem destination_of_stays (stays : i.operation.movesCounter key = false) :
    s.destination i key = s.pc.toNat + 2 := by
  have steady : ¬ s.Skips i key := by
    intro skips
    have skip := isSkip_of_skips skips
    cases operation : i.operation <;> simp_all [Operation.isSkip, Operation.movesCounter]
  unfold destination
  rw [if_neg steady]
  cases operation : i.operation <;> simp only [operation, Operation.movesCounter] at stays ⊢
  case waitForKey =>
    cases key with
    | none => cases stays
    | some key => rfl
  all_goals cases stays

/-- A sum that is inside memory does not wrap. -/
theorem pc_jumpWithOffset (runs : s.jumpWithOffset i = .ok t) : t.pc.toNat = s.offsetTarget i := by
  rw [jumpWithOffset_eq] at runs
  split at runs
  case isTrue => cases runs
  case isFalse inside =>
    cases runs
    have inside : s.offsetTarget i < 4096 := Nat.lt_of_not_le inside
    exact UInt16.toNat_ofNat_of_lt' (Nat.lt_trans inside (by decide))

/-- Jumps and calls, returns, and a wait without a key. The stack and the registers that they
look at are as they were before the fetch. -/
theorem pc_of_moves (moves : i.operation.movesCounter key = true)
    (straight : ¬ i.operation.isSkip = true) (fetch : s.fetch = .ok (i, fetched))
    (executes : fetched.execute i key = .ok t) : t.pc.toNat = s.destination i key := by
  obtain ⟨-, rfl⟩ := fetch_eq_ok fetch
  unfold execute at executes
  unfold destination
  cases operation : i.operation <;>
    simp only [operation, Operation.movesCounter, Operation.isSkip] at moves straight executes ⊢
  case jump =>
    cases executes
    exact i.toNat_target
  case call =>
    obtain ⟨stack, -, done⟩ := bind_eq_ok_iff.mp executes
    cases done
    exact i.toNat_target
  case returnToCaller =>
    obtain ⟨⟨address, stack⟩, popped, done⟩ := bind_eq_ok_iff.mp executes
    cases done
    exact congrArg UInt16.toNat (CallStack.top_of_pop popped)
  case jumpWithOffset => exact pc_jumpWithOffset executes
  case waitForKey =>
    cases key with
    | none =>
      -- The wait takes back what the fetch has added, even if that had wrapped.
      cases executes
      exact congrArg UInt16.toNat (UInt16.add_sub_cancel s.pc 2)
    | some key => cases moves
  all_goals contradiction

theorem pc_of_instruct (runs : Machine.instruct s key = .ok (i, t)) :
    t.pc.toNat = s.destination i key := by
  obtain ⟨fetched, fetch, executes⟩ := Machine.instruct_eq_ok_iff.mp runs
  have counted := pc_fetch fetch
  by_cases skip : i.operation.isSkip = true
  · -- The condition is evaluated behind the fetch, which leaves the registers alone.
    have same : fetched.Skips i key ↔ s.Skips i key := by
      rw [(fetch_eq_ok fetch).2]
      exact Iff.rfl
    rw [execute_skip skip] at executes
    cases executes
    rw [pc_skipIf (pc_fetch_le fetch), destination_of_skip skip, counted]
    simp only [decide_eq_true_eq, same]
  · by_cases moves : i.operation.movesCounter key = true
    · exact pc_of_moves moves skip fetch executes
    · have stays := Bool.eq_false_iff.mpr moves
      rw [destination_of_stays stays, (spares_of_execute executes).pc stays, counted]

/-- With a key one of the two conditions on it holds, whichever key it is. -/
theorem skips_on_key {held other : Instruction} (equal : held.operation = .skipIfKey)
    (unequal : other.operation = .skipIfNotKey) (register : held.x = other.x) :
    (∀ key, s.Skips other (some key) ↔ ¬ s.Skips held (some key)) ∧
      ¬ s.Skips held none ∧ ¬ s.Skips other none := by
  simp only [skips_of_skipIfKey equal, skips_of_skipIfNotKey unequal, register,
    Option.some.injEq, exists_eq_left', reduceCtorEq, false_and, exists_false, not_false_eq_true,
    implies_true, and_self, ne_eq]

theorem execute_on_key {held other : Instruction} (equal : held.operation = .skipIfKey)
    (unequal : other.operation = .skipIfNotKey) (register : held.x = other.x) :
    (∀ key,
      s.execute held (some key) = .ok { s with pc := s.pc + 2 } ∧
        s.execute other (some key) = .ok s ∨
      s.execute held (some key) = .ok s ∧
        s.execute other (some key) = .ok { s with pc := s.pc + 2 }) ∧
    s.execute held none = .ok s ∧ s.execute other none = .ok s := by
  obtain ⟨either, heldStays, otherStays⟩ := skips_on_key (s := s) equal unequal register
  have first (key : Option Key) : s.execute held key = _ := execute_skip (by rw [equal]; rfl)
  have second (key : Option Key) : s.execute other key = _ := execute_skip (by rw [unequal]; rfl)
  refine ⟨?_, ?_, ?_⟩
  · intro key
    rw [first, second]
    by_cases skips : s.Skips held (some key)
    · have stays : ¬ s.Skips other (some key) := fun both => (either key).mp both skips
      rw [decide_eq_true skips, decide_eq_false stays]
      exact .inl ⟨rfl, rfl⟩
    · rw [decide_eq_false skips, decide_eq_true ((either key).mpr skips)]
      exact .inr ⟨rfl, rfl⟩
  · rw [first, decide_eq_false heldStays]
    rfl
  · rw [second, decide_eq_false otherStays]
    rfl

end

end State

namespace Machine

/-- The clock may answer anything. With a key exactly one of the two skips on it is taken,
and without a key neither. -/
theorem goes_to_destination {m : Machine} {reading : Reading}
    (running : (m.cycleWith reading).2 = .ok .running) :
    let start := m.state
    let i := start.upcoming
    let next := (m.cycleWith reading).1.state
    next.pc.toNat = start.destination i m.poll.1.key ∧
    (i.opcode = 5 ∨ i.opcode = 9 → i.n ≠ 0 → next.pc.toNat = start.pc.toNat + 2) ∧
    ∀ (s : State) (held other : Instruction), held.operation = .skipIfKey →
      other.operation = .skipIfNotKey → held.x = other.x →
      (∀ key,
        s.execute held (some key) = .ok { s with pc := s.pc + 2 } ∧
          s.execute other (some key) = .ok s ∨
        s.execute held (some key) = .ok s ∧
          s.execute other (some key) = .ok { s with pc := s.pc + 2 }) ∧
      s.execute held none = .ok s ∧ s.execute other none = .ok s := by
  intro start i next
  obtain ⟨ended, -⟩ | ⟨-, j, after, ticks, runs, same⟩ := m.cycleWith_cases reading
  · exact absurd running ended
  · obtain ⟨fetched, fetch, -⟩ := instruct_eq_ok_iff.mp runs
    obtain rfl : j = i := State.eq_upcoming_of_fetch fetch
    have committed : next = after.elapse ticks := same
    have reached : next.pc.toNat = start.destination i m.poll.1.key := by
      rw [committed, State.pc_elapse]
      exact State.pc_of_instruct runs
    refine ⟨reached, ?_, ?_⟩
    · intro opcode digit
      have operation := Instruction.unsupported_of_digit opcode digit
      rw [reached, State.destination_of_stays (by rw [operation]; rfl)]
    · intro s held other equal unequal register
      exact State.execute_on_key equal unequal register

/-- A skip on another key, in the last word of memory. -/
def skipping : Machine :=
  { fresh { State.initial ⟨0, 0⟩ .classic with
      memory := Memory.zero.write 0xFFE [0xE0, 0xA1]
      pc := 0xFFE } with
    script := [⟨some 5, false⟩] }

theorem goes_to_destination_skipping :
    (skipping.cycleWith (skipping.clock, .ok 1)).2 = .ok .running ∧
    (skipping.cycleWith (skipping.clock, .ok 1)).1.state.pc.toNat = 0x1002 ∧
    skipping.state.execute (.ofInt 0xE09E) none = .ok skipping.state := by
  have running : (skipping.cycleWith (skipping.clock, .ok 1)).2 = .ok .running := by
    decide +kernel
  obtain ⟨reached, -, keyed⟩ := goes_to_destination running
  have destination : skipping.state.destination skipping.state.upcoming skipping.poll.1.key =
      0x1002 := by decide +kernel
  obtain ⟨-, held, -⟩ := keyed skipping.state (.ofInt 0xE09E) (.ofInt 0xE0A1) (by decide)
    (by decide) (by decide)
  exact ⟨running, reached.trans destination, held⟩

end Machine

end Chip8
