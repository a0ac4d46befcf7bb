import Chip8.Proofs.BlockTransfers
import Chip8.Proofs.Failures
import Chip8.Proofs.WellFormed

/-! Programs as words and as bytes. An image has two bytes for each word, the high one first,
and fetching one word after another from where it was loaded gives the words back. Wherever
the program counter stands, a fetch puts together the two bytes that it finds there, of the
image or of what was in memory before. -/

set_option autoImplicit false

namespace Chip8

open Fallible

namespace Instruction

/-- The two bytes of a word, the high one first. -/
def bytes (i : Instruction) : List UInt8 :=
  [UInt8.ofNat (i.word.toNat / 256), UInt8.ofNat (i.word.toNat % 256)]

/-- The two bytes make up the word again. -/
theorem ofBytes_bytes (i : Instruction) :
    ofBytes (UInt8.ofNat (i.word.toNat / 256)) (UInt8.ofNat (i.word.toNat % 256)) = i := by
  have bound := i.word.isLt
  have high : (UInt8.ofNat (i.word.toNat / 256)).toNat = i.word.toNat / 256 :=
    UInt8.toNat_ofNat_of_lt' (Nat.div_lt_of_lt_mul bound)
  have low : (UInt8.ofNat (i.word.toNat % 256)).toNat = i.word.toNat % 256 :=
    UInt8.toNat_ofNat_of_lt' (Nat.mod_lt _ (by decide))
  have whole := toNat_ofBytes (UInt8.ofNat (i.word.toNat / 256)) (UInt8.ofNat (i.word.toNat % 256))
  rw [high, low, Nat.div_add_mod] at whole
  exact congrArg mk (BitVec.eq_of_toNat_eq whole)

/-- The bytes of a program. -/
def image (words : List Instruction) : List UInt8 := words.flatMap bytes

theorem image_cons (i : Instruction) (words : List Instruction) :
    image (i :: words) = i.bytes ++ image words := rfl

theorem length_image (words : List Instruction) : (image words).length = 2 * words.length := by
  induction words with
  | nil => rfl
  | cons i words ih =>
    rw [image_cons, List.length_append, ih, List.length_cons, Nat.mul_succ, Nat.add_comm]
    rfl

/-- The first words take up the first bytes. -/
theorem image_take (count : Nat) (words : List Instruction) :
    image (words.take count) = (image words).take (2 * count) := by
  induction words generalizing count with
  | nil => rw [List.take_nil, image, List.flatMap_nil, List.take_nil]
  | cons i words ih =>
    cases count with
    | zero => rfl
    | succ count =>
      have past : 2 * (count + 1) = i.bytes.length + 2 * count := Nat.add_comm _ _
      rw [List.take_succ_cons, image_cons, image_cons, ih, past, List.take_length_add_append]

end Instruction

theorem Memory.slice_succ (m : Memory) (start length : Nat) :
    m.slice start (length + 1) = m.read start :: m.slice (start + 1) length := by
  rw [slice, List.range_succ_eq_map, List.map_cons, List.map_map]
  congr 1
  apply List.map_congr_left
  intro k _
  exact congrArg m.read (Nat.succ_add_eq_add_succ start k).symm

namespace State

/-- As many fetches in a row, and the words that they give. -/
def fetches (s : State) : Nat → Except Fault (List Instruction × State)
  | 0 => .ok ([], s)
  | count + 1 => do
      let (i, t) ← s.fetch
      let (rest, last) ← t.fetches count
      return (i :: rest, last)

/-- The byte at an address over which a program may have been loaded: the image's as far as it
reaches, and otherwise the one from before. -/
def byteUnder (s : State) (program : List UInt8) (address : Nat) : UInt8 :=
  if covered : 0x200 ≤ address ∧ address < 0x200 + program.length then
    program.get ⟨address - 0x200, Nat.sub_lt_left_of_lt_add covered.1 covered.2⟩
  else s.memory.read address

section
variable {s : State} {words : List Instruction} {program : List UInt8}

theorem fetches_succ {t last : State} {i : Instruction} (fetch : s.fetch = .ok (i, t))
    (onward : t.fetches words.length = .ok (words, last)) :
    s.fetches (words.length + 1) = .ok (i :: words, last) := by
  rw [fetches, fetch]
  simp only [ok_bind]
  rw [onward]
  rfl

/-- From where an image lies in memory on. -/
theorem fetches_of_image (words : List Instruction)
    (inside : s.pc.toNat + 2 * words.length ≤ Memory.size)
    (lies : s.memory.slice s.pc.toNat (2 * words.length) = Instruction.image words) :
    s.fetches words.length =
      .ok (words, { s with pc := UInt16.ofNat (s.pc.toNat + 2 * words.length) }) := by
  induction words generalizing s with
  | nil =>
    have stays : UInt16.ofNat (s.pc.toNat + 0) = s.pc := UInt16.ofNat_toNat
    exact congrArg (fun pc => Except.ok ([], { s with pc })) stays.symm
  | cons i words ih =>
    have within : s.pc.toNat + 2 ≤ Memory.size := by
      rw [List.length_cons] at inside
      omega
    -- The first two bytes are the first word, and the others lie behind it.
    have bytes : s.memory.read s.pc.toNat :: s.memory.read (s.pc.toNat + 1) ::
        s.memory.slice (s.pc.toNat + 2) (2 * words.length) = i.bytes ++ Instruction.image words := by
      rw [← Instruction.image_cons, ← lies, List.length_cons, Nat.mul_succ, Memory.slice_succ,
        Memory.slice_succ]
    obtain ⟨high, behind⟩ := List.cons.inj bytes
    obtain ⟨low, rest⟩ := List.cons.inj behind
    have fetch : s.fetch = .ok (i, { s with pc := s.pc + 2 }) := by
      rw [fetch_eq, if_pos within, high, low, Instruction.ofBytes_bytes]
    have counted := pc_fetch fetch
    have onward := ih (s := { s with pc := s.pc + 2 }) ?inside ?lies
    case inside =>
      rw [counted]
      rw [List.length_cons] at inside
      omega
    case lies =>
      rw [counted]
      exact rest
    have last : s.pc.toNat + 2 * (words.length + 1) = s.pc.toNat + 2 + 2 * words.length := by omega
    rw [counted] at onward
    rw [List.length_cons, last]
    exact fetches_succ fetch onward

theorem read_loaded (fits : program.length ≤ Memory.maxProgramSize) {address : Nat}
    (inside : address < Memory.size) :
    (s.memory.write Memory.programStart program).read address = s.byteUnder program address := by
  have within : Memory.programStart + program.length ≤ Memory.size := by
    change 0x200 + program.length ≤ 4096
    change program.length ≤ 3584 at fits
    omega
  unfold byteUnder
  split
  case isTrue covered =>
    obtain ⟨k, rfl⟩ := Nat.exists_eq_add_of_le covered.1
    have below : k < program.length := Nat.lt_of_add_lt_add_left covered.2
    simp only [Nat.add_sub_cancel_left]
    exact s.memory.read_write_add within below
  case isFalse apart =>
    apply Memory.read_write_of_outside
    change address < 0x200 ∨ 0x200 + program.length ≤ address
    omega

/-- Any program counter from which two bytes can be read, on words of the image or between
them. -/
theorem fetch_loaded (fits : program.length ≤ Memory.maxProgramSize) {pc : UInt16}
    (inside : pc.toNat ≤ 0xFFE) :
    ∃ i, fetch { s with memory := s.memory.write Memory.programStart program, pc } =
        .ok (i, { s with memory := s.memory.write Memory.programStart program, pc := pc + 2 }) ∧
      i.word.toNat = 256 * (s.byteUnder program pc.toNat).toNat +
        (s.byteUnder program (pc.toNat + 1)).toNat := by
  have within : pc.toNat + 2 ≤ Memory.size := Nat.add_le_add_right inside 2
  refine ⟨_, (fetch_eq _).trans (if_pos within), ?_⟩
  rw [Instruction.toNat_ofBytes, read_loaded fits (Nat.lt_of_succ_lt within),
    read_loaded fits within]

/-- From the start of a loaded program, any number of its words. -/
theorem fetches_loaded (fits : words.length ≤ 1792) {count : Nat} (among : count ≤ words.length) :
    let loaded := { s with
      memory := s.memory.write Memory.programStart (Instruction.image words) }
    fetches { loaded with pc := 0x200 } count =
      .ok (words.take count, { loaded with pc := UInt16.ofNat (0x200 + 2 * count) }) := by
  intro loaded
  have length := Instruction.length_image words
  have taken : (words.take count).length = count := List.length_take_of_le among
  have inside : Memory.programStart + (Instruction.image words).length ≤ Memory.size := by
    change 0x200 + (Instruction.image words).length ≤ 4096
    omega
  have reads := fetches_of_image (s := { loaded with pc := 0x200 }) (words.take count) ?_ ?_
  · rw [taken] at reads
    exact reads
  · change 0x200 + 2 * (words.take count).length ≤ 4096
    omega
  · rw [taken, Instruction.image_take]
    exact Memory.slice_write_take inside (by omega)

/-- Programs that fit are loaded, those of words and any others, and longer ones are refused. -/
theorem fetches_image (s : State) :
    (∀ words : List Instruction, words.length ≤ 1792 →
      ∃ loaded, s.loadProgram (Instruction.image words) = .ok loaded ∧
        ∀ count, count ≤ words.length →
          ∃ last, fetches { loaded with pc := 0x200 } count = .ok (words.take count, last) ∧
            last.pc.toNat = 0x200 + 2 * count) ∧
    (∀ program : List UInt8, program.length ≤ 3584 →
      ∃ loaded, s.loadProgram program = .ok loaded ∧
        ∀ pc : UInt16, pc.toNat ≤ 0xFFE →
          ∃ i, fetch { loaded with pc } = .ok (i, { loaded with pc := pc + 2 }) ∧
            i.word.toNat = 256 * (s.byteUnder program pc.toNat).toNat +
              (s.byteUnder program (pc.toNat + 1)).toNat) ∧
    ∀ program : List UInt8, 3584 < program.length →
      Raises (s.loadProgram program) "ProgramTooLargeError" := by
  refine ⟨?words, ?bytes, ?refused⟩
  case words =>
    intro words fits
    have bytes : (Instruction.image words).length ≤ 3584 := by
      rw [Instruction.length_image]
      omega
    refine ⟨_, loadProgram_of_fits s bytes, ?_⟩
    intro count among
    refine ⟨_, fetches_loaded fits among, ?_⟩
    exact UInt16.toNat_ofNat_of_lt' (by change 0x200 + 2 * count < 65536; omega)
  case bytes =>
    intro program fits
    refine ⟨_, loadProgram_of_fits s fits, ?_⟩
    intro pc inside
    exact fetch_loaded fits inside
  case refused =>
    intro program long
    have beyond : Memory.programStart + program.length > Memory.size := by
      change 0x200 + program.length > 4096
      omega
    exact ⟨.programTooLarge program.length, if_pos beyond, rfl⟩

end

/-- The last fetch takes its first byte from in front of the image. -/
theorem fetches_image_straddling :
    let s := initial ⟨0, 0⟩ .classic
    (∃ loaded last, s.loadProgram [0xA2, 0xF0, 0x00, 0xE0] = .ok loaded ∧
      fetches { loaded with pc := 0x200 } 2 = .ok ([.ofInt 0xA2F0, .ofInt 0x00E0], last) ∧
      last.pc.toNat = 0x204) ∧
    (∃ loaded i, s.loadProgram [0x12, 0x34] = .ok loaded ∧
      fetch { loaded with pc := 0x1FF } = .ok (i, { loaded with pc := 0x201 }) ∧
      i.word.toNat = 0x0012) ∧
    Raises (s.loadProgram (List.replicate 3585 0)) "ProgramTooLargeError" := by
  intro s
  obtain ⟨words, programs, refused⟩ := fetches_image s
  refine ⟨?_, ?_, refused _ (by rw [List.length_replicate]; decide)⟩
  · obtain ⟨loaded, loads, fetched⟩ := words [.ofInt 0xA2F0, .ofInt 0x00E0] (by decide)
    obtain ⟨last, read, reached⟩ := fetched 2 (by decide)
    exact ⟨loaded, last, loads, read, reached⟩
  · obtain ⟨loaded, loads, fetched⟩ := programs [0x12, 0x34] (by decide)
    obtain ⟨i, fetch, word⟩ := fetched 0x1FF (by decide)
    exact ⟨loaded, i, loads, fetch, word.trans (by decide +kernel)⟩

end State

end Chip8
