import Chip8.Proofs.Faults

/-! Execution in which nothing is taken for granted. A word is read into plain
numbers, the operation and its handler are looked up in tables that may miss, and
every access to memory, the registers or the call stack names its index as a number
that may lie outside. A miss and a stray index end in a trap. The main statement is
that no word and no state reach one: `execute_eq`. -/

set_option autoImplicit false

namespace Chip8.Checked

open Fallible

inductive Trap where
  | fault (fault : Fault)
  | unknownOpcode (opcode : Nat)
  | unhandled (operation : Operation)
  | outOfRange (index size : Nat)
  deriving DecidableEq, Repr

section
variable {α : Type} {size : Nat}

def get (v : Vector α size) (index : Nat) : Except Trap α :=
  if bound : index < size then .ok v[index] else .error (.outOfRange index size)

def set (v : Vector α size) (index : Nat) (value : α) : Except Trap (Vector α size) :=
  if bound : index < size then .ok (v.set index value) else .error (.outOfRange index size)

def getBlock (v : Vector α size) (start : Nat) : Nat → Except Trap (List α)
  | 0 => .ok []
  | count + 1 => do
      let value ← get v start
      let rest ← getBlock v (start + 1) count
      return value :: rest

def setBlock (v : Vector α size) (start : Nat) : List α → Except Trap (Vector α size)
  | [] => .ok v
  | value :: rest => do
      let written ← set v start value
      setBlock written (start + 1) rest

/-- The vector with `values` in the places from `start` on. -/
def splice (v : Vector α size) (start : Nat) (values : List α) : Vector α size :=
  Vector.ofFn fun k => if start ≤ k.val then values[k.val - start]?.getD v[k] else v[k]

theorem get_fin (v : Vector α size) (index : Fin size) : get v index.val = .ok v[index] := by
  simp [get]

theorem set_fin (v : Vector α size) (index : Fin size) (value : α) :
    set v index.val value = .ok (v.set index.val value) := by
  simp [set]

theorem getBlock_eq {v : Vector α size} {start count : Nat} (inside : start + count ≤ size) :
    getBlock v start count = .ok ((v.toList.drop start).take count) := by
  induction count generalizing start with
  | zero => simp [getBlock]
  | succ count ih =>
    have here : start < size := by omega
    have rest : getBlock v (start + 1) count = _ := ih (by omega)
    rw [List.drop_eq_getElem_cons (by simpa using here)]
    simp [getBlock, get, here, rest, pure_eq_ok]

theorem setBlock_eq {v : Vector α size} {start : Nat} {values : List α}
    (inside : start + values.length ≤ size) :
    setBlock v start values = .ok (splice v start values) := by
  induction values generalizing v start with
  | nil => simp [setBlock, splice]
  | cons value rest ih =>
    simp only [List.length_cons] at inside
    have here : start < size := by omega
    rw [setBlock, set, dif_pos here, ok_bind, ih (by omega)]
    congr 1
    -- The rest is written past the first place and never comes back to it.
    ext k bound
    simp only [splice, Vector.getElem_ofFn, Fin.getElem_fin]
    by_cases before : k < start
    · rw [if_neg (by omega), if_neg (by omega), Vector.getElem_set_ne _ _ (by omega)]
    · obtain ⟨past, rfl⟩ : ∃ past, k = start + past := ⟨k - start, by omega⟩
      cases past with
      | zero => rw [if_neg (by omega), if_pos (by omega)]; simp
      | succ past =>
        have shift : start + (past + 1) - (start + 1) = past := by omega
        rw [if_pos (by omega), if_pos (by omega), shift, Vector.getElem_set_ne _ _ (by omega)]
        simp

end

/-! ## Words and tables -/

/-- The operand fields of a word as plain numbers. -/
structure Fields where
  opcode : Nat
  x : Nat
  y : Nat
  n : Nat
  nn : Nat
  nnn : Nat

def Fields.ofInt (word : Int) : Fields :=
  let raw := (word % 0x10000).toNat
  ⟨raw / 0x1000, raw / 0x100 % 0x10, raw / 0x10 % 0x10, raw % 0x10, raw % 0x100, raw % 0x1000⟩

def identify (w : Fields) : Except Trap Operation :=
  match Operation.ofFields? w.opcode w.x w.n w.nn with
  | some operation => .ok operation
  | none => .error (.unknownOpcode w.opcode)

abbrev Handler := State → Fields → Except Trap State

abbrev KeyHandler := State → Fields → Option Key → Except Trap State

def check (address length : Nat) : Except Trap Unit :=
  (Memory.check address length).mapError .fault

def setRegister (s : State) (r : Nat) (value : UInt8) : Except Trap State := do
  let registers ← set s.registers r value
  return { s with registers }

def push (s : CallStack) (address : Nat) : Except Trap CallStack :=
  if room : s.depth < 16 then
    if address ≥ Memory.size then .error (.fault (.returnOutsideMemory address))
    else do
      let slots ← set s.slots s.depth (UInt16.ofNat address)
      return ⟨slots, s.depth + 1, room⟩
  else .error (.fault .stackFull)

def pop (s : CallStack) : Except Trap (UInt16 × CallStack) :=
  if s.depth = 0 then .error (.fault .stackEmpty)
  else do
    let address ← get s.slots (s.depth - 1)
    let slots ← set s.slots (s.depth - 1) 0
    return (address, ⟨slots, s.depth - 1, Nat.le_trans (Nat.sub_le _ _) s.depth_le⟩)

/-- Skips when the values of VX and VY satisfy the condition. -/
def skip (condition : UInt8 → UInt8 → Fields → Bool) : Handler := fun s w => do
  let vx ← get s.registers w.x
  let vy ← get s.registers w.y
  return s.skipIf (condition vx vy w)

def jump : Handler := fun s w => .ok { s with pc := UInt16.ofNat w.nnn }

def call : Handler := fun s w => do
  let stack ← push s.stack s.pc.toNat
  jump { s with stack } w

def returnToCaller : Handler := fun s _ => do
  let (pc, stack) ← pop s.stack
  return { s with stack, pc }

/-- The number of the register that a jump with offset adds. -/
def offsetRegister (s : State) (w : Fields) : Nat :=
  match s.dialect with
  | .classic => 0
  | .modern => w.x

def jumpWithOffset : Handler := fun s w => do
  let offset ← get s.registers (offsetRegister s w)
  let target := w.nnn + offset.toNat
  if target ≥ Memory.size then .error (.fault (.jumpOutsideMemory target))
  else .ok { s with pc := UInt16.ofNat target }

def alu (f : Alu) : Handler := fun s w => do
  let vx ← get s.registers w.x
  let vy ← get s.registers w.y
  let operand := if f.isShift && s.dialect == .classic then vy else vx
  let (result, flag) := f.apply operand.toNat vy.toNat
  let written ← setRegister s w.x (UInt8.ofNat result.toNat)
  match flag with
  | none => return written
  | some raised => setRegister written 15 (UInt8.ofNat raised.toNat)

/-- Gives VX a value computed from its old one. -/
def assign (value : State → UInt8 → Fields → UInt8) : Handler := fun s w => do
  let vx ← get s.registers w.x
  setRegister s w.x (value s vx w)

/-- Uses the value of VX for something else than a register. -/
def useRegister (effect : State → UInt8 → State) : Handler := fun s w => do
  let vx ← get s.registers w.x
  return effect s vx

def draw : Handler := fun s w => do
  check s.index.toNat w.n
  let column ← get s.registers w.x
  let row ← get s.registers w.y
  let bytes ← getBlock s.memory s.index.toNat w.n
  let sprite := Screen.sprite bytes row.toNat column.toNat
  let flagged ← setRegister s 15 (if s.screen.overlaps sprite then 1 else 0)
  return { flagged with screen := s.screen.xor sprite }

def storeDigits : Handler := fun s w => do
  check s.index.toNat 3
  let vx ← get s.registers w.x
  let memory ← setBlock s.memory s.index.toNat (State.decimalDigits vx)
  return { s with memory }

def storeRegisters : Handler := fun s w => do
  check s.index.toNat (w.x + 1)
  let block ← getBlock s.registers 0 (w.x + 1)
  let memory ← setBlock s.memory s.index.toNat block
  return { s with memory, index := s.indexAfter (w.x + 1) }

def loadRegisters : Handler := fun s w => do
  check s.index.toNat (w.x + 1)
  let block ← getBlock s.memory s.index.toNat (w.x + 1)
  let registers ← setBlock s.registers 0 block
  return { s with registers, index := s.indexAfter (w.x + 1) }

def skipOnKey (condition : UInt8 → Key → Bool) : KeyHandler := fun s w key => do
  let vx ← get s.registers w.x
  return s.skipIf (key.any (condition vx))

def waitForKey : KeyHandler
  | s, _, none => .ok { s with pc := s.pc - 2 }
  | s, w, some key => setRegister s w.x (UInt8.ofNat (key % 16).toNat)

/-- The handlers of the operations that do not look at the key. -/
def handler? : Operation → Option Handler
  | .clearScreen => some fun s _ => .ok { s with screen := .blank }
  | .returnToCaller => some returnToCaller
  | .jump => some jump
  | .call => some call
  | .skipIfEqualImmediate => some (skip fun vx _ w => vx.toNat == w.nn)
  | .skipIfNotEqualImmediate => some (skip fun vx _ w => vx.toNat != w.nn)
  | .skipIfEqualRegister => some (skip fun vx vy _ => vx == vy)
  | .setImmediate => some (assign fun _ _ w => UInt8.ofNat w.nn)
  | .addImmediate => some (assign fun _ vx w => vx + UInt8.ofNat w.nn)
  | .alu f => some (alu f)
  | .skipIfNotEqualRegister => some (skip fun vx vy _ => vx != vy)
  | .setIndex => some fun s w => .ok { s with index := UInt16.ofNat w.nnn }
  | .jumpWithOffset => some jumpWithOffset
  | .random => some fun s w => do
      let drawn ← assign (fun s _ w => s.random.byte &&& UInt8.ofNat w.nn) s w
      return { drawn with random := s.random.next }
  | .draw => some draw
  | .getDelayTimer => some (assign fun s _ _ => s.delay)
  | .setDelayTimer => some (useRegister fun s vx => { s with delay := vx })
  | .setSoundTimer => some (useRegister fun s vx => { s with sound := vx })
  | .addToIndex => some (useRegister fun s vx => { s with index := s.index + vx.toUInt16 })
  | .fontCharacter => some (useRegister fun s vx => { s with index := State.glyphIndex vx })
  | .decimalDigits => some storeDigits
  | .storeRegisters => some storeRegisters
  | .loadRegisters => some loadRegisters
  | .skipIfKey | .skipIfNotKey | .waitForKey | .unsupported => none

/-- The handlers of the operations that receive the sampled key. -/
def keyHandler? : Operation → Option KeyHandler
  | .skipIfKey => some (skipOnKey fun vx key => (vx.toNat : Int) == key)
  | .skipIfNotKey => some (skipOnKey fun vx key => (vx.toNat : Int) != key)
  | .waitForKey => some waitForKey
  | _ => none

def dispatch (operation : Operation) : KeyHandler := fun s w key =>
  match keyHandler? operation with
  | some handler => handler s w key
  | none =>
      if operation = .unsupported then .ok s
      else
        match handler? operation with
        | some handler => handler s w
        | none => .error (.unhandled operation)

def execute (s : State) (word : Int) (key : Option Key) : Except Trap State := do
  let w := Fields.ofInt word
  let operation ← identify w
  dispatch operation s w key

/-- The fetched word is a number again. -/
def fetch (s : State) : Except Trap (Int × State) := do
  check s.pc.toNat 2
  let high ← get s.memory s.pc.toNat
  let low ← get s.memory (s.pc.toNat + 1)
  return (0x100 * high.toNat + low.toNat, { s with pc := s.pc + 2 })

/-! ## Agreement with plain execution -/

/-- The fields of an instruction as plain numbers. -/
def Fields.of (i : Instruction) : Fields :=
  ⟨i.opcode.val, i.x.val, i.y.val, i.n.val, i.nn.toNat, i.nnn.toNat⟩

theorem Fields.ofInt_eq (word : Int) : Fields.ofInt word = .of (.ofInt word) := by
  have bound : (word % 0x10000).toNat / 0x1000 < 0x10 := by omega
  simp only [ofInt, of, Instruction.ofInt, Instruction.opcode, Instruction.x, Instruction.y,
    Instruction.n, Instruction.nn, Instruction.nnn, BitVec.val_toFin, UInt8.toNat_ofBitVec,
    BitVec.extractLsb'_toNat, BitVec.toNat_ofInt, Nat.shiftRight_eq_div_pow]
  simp [Nat.mod_eq_of_lt bound]

theorem identify_of (i : Instruction) : identify (.of i) = .ok i.operation := by
  have known := i.operation_eq_ofFields?
  unfold identify
  simp only [Fields.of, known]

theorem push_eq (s : CallStack) (address : Nat) :
    push s address = (s.push address).mapError .fault := by
  unfold push CallStack.push
  split
  case isFalse => rfl
  case isTrue room =>
    split
    case isTrue => rfl
    case isFalse => rw [set, dif_pos room]; rfl

theorem pop_eq (s : CallStack) : pop s = s.pop.mapError .fault := by
  obtain ⟨slots, depth, le⟩ := s
  cases depth with
  | zero => rfl
  | succ depth =>
    have newest : get slots depth = .ok slots[depth] := get_fin slots ⟨depth, le⟩
    have cleared : set slots depth 0 = .ok (slots.set depth 0) := set_fin slots ⟨depth, le⟩ 0
    rw [pop, if_neg (Nat.succ_ne_zero depth)]
    simp only [Nat.add_sub_cancel, newest, cleared, ok_bind]
    rfl

theorem get_memory {m : Memory} {address : Nat} (inside : address < 4096) :
    get m address = .ok (m.read address) := by
  simp [get, Memory.read, inside]

theorem getBlock_memory {m : Memory} {start count : Nat}
    (inside : start + count ≤ Memory.size) :
    getBlock m start count = .ok (m.slice start count) := by
  rw [getBlock_eq inside]
  congr 1
  apply List.ext_getElem?
  intro k
  by_cases within : k < count
  · have here : start + k < 4096 := Nat.lt_of_lt_of_le (Nat.add_lt_add_left within start) inside
    simp [Memory.slice, Memory.read, within, here]
  · have beyond : count ≤ k := Nat.le_of_not_lt within
    have shorter : ((m.toList.drop start).take count).length ≤ k :=
      Nat.le_trans (List.length_take_le _ _) beyond
    have short : (m.slice start count).length ≤ k := (m.length_slice start count).symm ▸ beyond
    rw [List.getElem?_eq_none shorter, List.getElem?_eq_none short]

theorem setBlock_memory {m : Memory} {start : Nat} {bytes : List UInt8}
    (inside : start + bytes.length ≤ Memory.size) :
    setBlock m start bytes = .ok (m.write start bytes) := by
  refine (setBlock_eq (v := m) inside).trans (congrArg Except.ok ?_)
  apply Vector.ext
  intro k bound
  have law := Memory.read_write m start k bytes bound
  simp only [Memory.read, Vector.getElem?_eq_getElem bound, Option.getD_some] at law
  simp [splice, law]

theorem getBlock_registers (v : Registers) (last : Fin 16) :
    getBlock v 0 (last.val + 1) = .ok (v.through last) := by
  have inside : 0 + (last.val + 1) ≤ 16 := by omega
  have block := getBlock_eq (v := v) inside
  rw [List.drop_zero] at block
  exact block

theorem setBlock_registers {v : Registers} {bytes : List UInt8} (fits : bytes.length ≤ 16) :
    setBlock v 0 bytes = .ok (v.load bytes) := by
  rw [setBlock_eq (by omega)]
  simp [splice, Registers.load, Registers.read]

theorem setRegister_eq (s : State) (r : Fin 16) (value : UInt8) :
    setRegister s r.val value = .ok (s.setRegister r value) := by
  rw [setRegister, set_fin]
  rfl

theorem get_register (s : State) (r : Fin 16) :
    get s.registers r.val = .ok (s.registers.read r) := get_fin s.registers r

section
variable (s : State) (i : Instruction)

theorem skip_eq (condition : UInt8 → UInt8 → Fields → Bool) :
    skip condition s (.of i) =
      .ok (s.skipIf (condition (s.registers.read i.x) (s.registers.read i.y) (.of i))) := by
  simp [skip, Fields.of, get_register, pure_eq_ok]

theorem assign_eq (value : State → UInt8 → Fields → UInt8) :
    assign value s (.of i) =
      .ok (s.setRegister i.x (value s (s.registers.read i.x) (.of i))) := by
  simp [assign, Fields.of, get_register, setRegister_eq]

theorem useRegister_eq (effect : State → UInt8 → State) :
    useRegister effect s (.of i) = .ok (effect s (s.registers.read i.x)) := by
  simp [useRegister, Fields.of, get_register, pure_eq_ok]

theorem skipOnKey_eq (condition : UInt8 → Key → Bool) (key : Option Key) :
    skipOnKey condition s (.of i) key =
      .ok (s.skipIf (key.any (condition (s.registers.read i.x)))) := by
  simp [skipOnKey, Fields.of, get_register, pure_eq_ok]

theorem waitForKey_eq (key : Option Key) :
    waitForKey s (.of i) key = .ok (s.waitForKey i key) := by
  cases key with
  | none => rfl
  | some key => exact setRegister_eq s i.x _

theorem ofNat_nnn : UInt16.ofNat i.nnn.toNat = i.target := by
  rw [← i.toNat_target, UInt16.ofNat_toNat]

theorem jump_eq : jump s (.of i) = .ok (s.jump i) := by
  simp [jump, Fields.of, ofNat_nnn, State.jump]

theorem call_eq : call s (.of i) = (s.call i).mapError .fault := by
  rw [call, push_eq, State.call]
  cases s.stack.push s.pc.toNat with
  | error f => rfl
  | ok stack => exact jump_eq { s with stack } i

theorem returnToCaller_eq : returnToCaller s (.of i) = s.returnToCaller.mapError .fault := by
  rw [returnToCaller, pop_eq, State.returnToCaller]
  cases s.stack.pop <;> rfl

theorem get_offsetRegister :
    get s.registers (offsetRegister s (.of i)) = .ok (s.offset i) := by
  unfold offsetRegister State.offset
  cases s.dialect with
  | classic => exact get_register s Registers.first
  | modern => exact get_register s i.x

theorem jumpWithOffset_eq :
    jumpWithOffset s (.of i) = (s.jumpWithOffset i).mapError .fault := by
  rw [jumpWithOffset, get_offsetRegister, State.jumpWithOffset_eq]
  change (if Memory.size ≤ s.offsetTarget i then _ else _) = _
  by_cases outside : Memory.size ≤ s.offsetTarget i
  · rw [if_pos outside, if_pos outside]
    rfl
  · rw [if_neg outside, if_neg outside]
    rfl

theorem alu_eq (f : Alu) : alu f s (.of i) = .ok (s.applyAlu i f) := by
  have operand : (if f.isShift && s.dialect == .classic then s.registers.read i.y
      else s.registers.read i.x) =
      if f.isShift then s.shiftOperand i else s.registers.read i.x := by
    cases f.isShift <;> cases dialect : s.dialect <;> simp [State.shiftOperand, dialect]
  simp only [alu, Fields.of, get_register, ok_bind, operand, setRegister_eq, State.applyAlu]
  generalize f.apply _ _ = applied
  obtain ⟨result, flag⟩ := applied
  cases flag with
  | none => rfl
  | some raised => exact setRegister_eq _ Registers.flag _

/-- Whatever follows an address check has to agree inside memory only. -/
theorem check_bind_eq {address length : Nat} {next : Unit → Except Trap State}
    {plain : Unit → Except Fault State}
    (agree : address + length ≤ Memory.size → next () = (plain ()).mapError .fault) :
    check address length >>= next = (Memory.check address length >>= plain).mapError .fault := by
  rw [check, Memory.check_natCast]
  by_cases inside : address + length ≤ Memory.size
  · rw [if_pos inside]
    exact agree inside
  · rw [if_neg inside]
    rfl

theorem setFlag_eq (value : UInt8) :
    setRegister s 15 value = .ok (s.setRegister Registers.flag value) :=
  setRegister_eq s Registers.flag value

theorem draw_eq : draw s (.of i) = (s.draw i).mapError .fault := by
  apply check_bind_eq
  intro (inside : s.index.toNat + i.n.val ≤ Memory.size)
  simp only [Fields.of, get_register, getBlock_memory inside, setFlag_eq, ok_bind]
  rfl

theorem storeDigits_eq : storeDigits s (.of i) = (s.storeDigits i).mapError .fault := by
  apply check_bind_eq
  intro inside
  have digits (value : UInt8) : setBlock s.memory s.index.toNat (State.decimalDigits value) =
      .ok (s.memory.write s.index.toNat (State.decimalDigits value)) := setBlock_memory inside
  simp only [Fields.of, get_register, digits, ok_bind]
  rfl

theorem storeRegisters_eq :
    storeRegisters s (.of i) = (s.storeRegisters i).mapError .fault := by
  apply check_bind_eq
  intro (inside : s.index.toNat + (i.x.val + 1) ≤ Memory.size)
  have length := s.registers.length_through i.x
  have block := setBlock_memory (m := s.memory) (length.symm ▸ inside)
  simp only [Fields.of, getBlock_registers, block, ok_bind]
  rfl

theorem loadRegisters_eq :
    loadRegisters s (.of i) = (s.loadRegisters i).mapError .fault := by
  apply check_bind_eq
  intro (inside : s.index.toNat + (i.x.val + 1) ≤ Memory.size)
  have fits : (s.memory.slice s.index.toNat (i.x.val + 1)).length ≤ 16 := by
    have bound := i.x.isLt
    rw [Memory.length_slice]
    omega
  simp only [Fields.of, getBlock_memory inside, setBlock_registers fits, ok_bind]
  rfl

end

theorem beq_toNat (a b : UInt8) : (a.toNat == b.toNat) = (a == b) := by
  rw [Bool.eq_iff_iff, beq_iff_eq, beq_iff_eq, UInt8.toNat_inj]

theorem bne_toNat (a b : UInt8) : (a.toNat != b.toNat) = (a != b) :=
  congrArg not (beq_toNat a b)

theorem dispatch_of_handler {operation : Operation} {handler : Handler}
    (known : handler? operation = some handler) (s : State) (w : Fields) (key : Option Key) :
    dispatch operation s w key = handler s w := by
  unfold dispatch
  cases operation <;> simp_all [handler?, keyHandler?]

theorem dispatch_of_keyHandler {operation : Operation} {handler : KeyHandler}
    (known : keyHandler? operation = some handler) (s : State) (w : Fields) (key : Option Key) :
    dispatch operation s w key = handler s w key := by
  simp only [dispatch, known]

/-- No table misses, no index is out of range, and what is left of a failure is
the fault that plain execution reports. -/
theorem execute_eq (s : State) (word : Int) (key : Option Key) :
    execute s word key = (s.execute (.ofInt word) key).mapError .fault := by
  unfold execute
  rw [Fields.ofInt_eq]
  generalize Instruction.ofInt word = i
  simp only [identify_of, ok_bind, State.execute]
  cases i.operation with
  | clearScreen => rfl
  | returnToCaller => exact (dispatch_of_handler rfl s _ key).trans (returnToCaller_eq s i)
  | jump => exact (dispatch_of_handler rfl s _ key).trans (jump_eq s i)
  | call => exact (dispatch_of_handler rfl s _ key).trans (call_eq s i)
  -- An immediate operand is a number here and a byte there.
  | skipIfEqualImmediate =>
    rw [dispatch_of_handler rfl, skip_eq]
    simp only [Fields.of, beq_toNat]
    rfl
  | skipIfNotEqualImmediate =>
    rw [dispatch_of_handler rfl, skip_eq]
    simp only [Fields.of, bne_toNat]
    rfl
  | skipIfEqualRegister => exact (dispatch_of_handler rfl s _ key).trans (skip_eq s i _)
  | setImmediate =>
    rw [dispatch_of_handler rfl, assign_eq]
    simp only [Fields.of, UInt8.ofNat_toNat]
    rfl
  | addImmediate =>
    rw [dispatch_of_handler rfl, assign_eq]
    simp only [Fields.of, UInt8.ofNat_toNat]
    rfl
  | alu f => exact (dispatch_of_handler rfl s _ key).trans (alu_eq s i f)
  | skipIfNotEqualRegister => exact (dispatch_of_handler rfl s _ key).trans (skip_eq s i _)
  | setIndex =>
    rw [dispatch_of_handler rfl]
    simp only [Fields.of, ofNat_nnn]
    rfl
  | jumpWithOffset => exact (dispatch_of_handler rfl s _ key).trans (jumpWithOffset_eq s i)
  | random =>
    rw [dispatch_of_handler rfl, assign_eq]
    simp only [Fields.of, UInt8.ofNat_toNat]
    rfl
  | draw => exact (dispatch_of_handler rfl s _ key).trans (draw_eq s i)
  | skipIfKey => exact (dispatch_of_keyHandler rfl s _ key).trans (skipOnKey_eq s i _ key)
  | skipIfNotKey => exact (dispatch_of_keyHandler rfl s _ key).trans (skipOnKey_eq s i _ key)
  | getDelayTimer => exact (dispatch_of_handler rfl s _ key).trans (assign_eq s i _)
  | waitForKey => exact (dispatch_of_keyHandler rfl s _ key).trans (waitForKey_eq s i key)
  | setDelayTimer => exact (dispatch_of_handler rfl s _ key).trans (useRegister_eq s i _)
  | setSoundTimer => exact (dispatch_of_handler rfl s _ key).trans (useRegister_eq s i _)
  | addToIndex => exact (dispatch_of_handler rfl s _ key).trans (useRegister_eq s i _)
  | fontCharacter => exact (dispatch_of_handler rfl s _ key).trans (useRegister_eq s i _)
  | decimalDigits => exact (dispatch_of_handler rfl s _ key).trans (storeDigits_eq s i)
  | storeRegisters => exact (dispatch_of_handler rfl s _ key).trans (storeRegisters_eq s i)
  | loadRegisters => exact (dispatch_of_handler rfl s _ key).trans (loadRegisters_eq s i)
  | unsupported => rfl

theorem ofInt_bytes (high low : UInt8) :
    Instruction.ofInt (0x100 * high.toNat + low.toNat) = .ofBytes high low := by
  have h := high.toNat_lt
  have l := low.toNat_lt
  apply congrArg Instruction.mk
  apply BitVec.eq_of_toNat_eq
  rw [BitVec.toNat_ofInt]
  change _ = (Instruction.ofBytes high low).word.toNat
  rw [Instruction.toNat_ofBytes]
  omega

/-- The word that the checked fetch reads stands for the fetched instruction. -/
theorem fetch_eq (s : State) :
    (fetch s).map (fun fetched => (Instruction.ofInt fetched.1, fetched.2)) =
      s.fetch.mapError .fault := by
  rw [State.fetch_eq, fetch, check, Memory.check_natCast]
  by_cases inside : s.pc.toNat + 2 ≤ Memory.size
  · have last : s.pc.toNat + 1 < 4096 := inside
    have high : get s.memory s.pc.toNat = .ok (s.memory.read s.pc.toNat) :=
      get_memory (Nat.lt_of_succ_lt last)
    have low : get s.memory (s.pc.toNat + 1) = .ok (s.memory.read (s.pc.toNat + 1)) :=
      get_memory last
    rw [if_pos inside, if_pos inside]
    change Except.map _ (get s.memory s.pc.toNat >>= _) = _
    rw [high, ok_bind, low, ok_bind]
    exact congrArg (fun i => Except.ok (i, { s with pc := s.pc + 2 })) (ofInt_bytes _ _)
  · rw [if_neg inside, if_neg inside]
    rfl

end Chip8.Checked
