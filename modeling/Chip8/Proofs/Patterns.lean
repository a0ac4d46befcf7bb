import Chip8.Instruction
import Chip8.Text.Hexadecimal

/-! What a word means, read off the patterns of the operations. The pattern of an
operation is a text of four places; a word is spelled with four hexadecimal digits.
The main statement is that the decoded operation is the one whose pattern the
spelling fits, that it is the only one, and that the operand fields put the word
together again. -/

set_option autoImplicit false

namespace Chip8

namespace Text

/-- The last `width` hexadecimal digits of a number. -/
def lastDigits : Nat → Nat → List Char
  | 0, _ => []
  | width + 1, n => lastDigits width (n / 16) ++ [hexDigit (n % 16)]

theorem hexDigits_of_lt {n : Nat} (single : n < 16) : hexDigits n = [hexDigit n] := by
  rw [hexDigits, if_pos single]

theorem hexDigits_of_le {n : Nat} (longer : 16 ≤ n) :
    hexDigits n = hexDigits (n / 16) ++ [hexDigit (n % 16)] := by
  rw [hexDigits, if_neg (Nat.not_lt.mpr longer)]

/-- Padding a numeral with zeros adds the digits that it leaves out. -/
theorem padded_hexDigits {width n : Nat} (fits : n >>> (4 * (width + 1)) = 0) :
    List.replicate (width + 1 - (hexDigits n).length) '0' ++ hexDigits n =
      lastDigits (width + 1) n := by
  induction width generalizing n with
  | zero =>
    have single : n < 16 := by omega
    simp [hexDigits_of_lt single, lastDigits, Nat.mod_eq_of_lt single]
  | succ width ih =>
    have shorter : (n / 16) >>> (4 * (width + 1)) = 0 := by
      have last : n / 16 = n >>> 4 := (Nat.shiftRight_eq_div_pow n 4).symm
      rw [last, ← Nat.shiftRight_add, Nat.add_comm, ← Nat.mul_succ]
      exact fits
    rw [lastDigits, ← ih shorter]
    by_cases single : n < 16
    -- The digits before a single one are all padding.
    · have zeros : n / 16 = 0 := Nat.div_eq_of_lt single
      simp [hexDigits_of_lt single, hexDigits_of_lt, zeros, Nat.mod_eq_of_lt single, hexDigit,
        List.replicate_succ']
    · have longer : 16 ≤ n := Nat.le_of_not_lt single
      rw [hexDigits_of_le longer, List.length_append, List.length_singleton,
        Nat.add_sub_add_right, List.append_assoc]

theorem hex_natCast {width n : Nat} (fits : n >>> (4 * (width + 1)) = 0) :
    hex (width + 1) n = String.ofList (lastDigits (width + 1) n) := by
  have positive : ¬ (n : Int) < 0 := by omega
  simp only [hex, if_neg positive, List.length_nil, Nat.sub_zero, List.nil_append,
    Int.natAbs_natCast, padded_hexDigits fits]

/-- The value of a hexadecimal digit. -/
def hexValue (c : Char) : Nat := if c.toNat < 65 then c.toNat - 48 else c.toNat - 55

theorem hexValue_hexDigit (d : Fin 16) : hexValue (hexDigit d) = d := by
  revert d
  decide

theorem eq_hexDigit_iff {c : Char} {d : Fin 16} :
    c = hexDigit d ↔ hexDigit (hexValue c) = c ∧ hexValue c = d := by
  constructor
  · rintro rfl
    rw [hexValue_hexDigit]
    exact ⟨rfl, rfl⟩
  · rintro ⟨written, value⟩
    rw [← value, written]

end Text

namespace Operation

/-- The letters that stand for any digit. -/
def isPlaceholder (letter : Char) : Bool := letter == 'X' || letter == 'Y' || letter == 'N'

/-- Whether a digit can stand in a place where a pattern has the letter. -/
def admits (letter digit : Char) : Bool := isPlaceholder letter || letter == digit

/-- Whether a text of digits can be read off the operation's pattern, place by place. -/
def fits (op : Operation) (digits : String) : Bool :=
  op.pattern.toList.isEqv digits.toList admits

/-- Four digits as a text. -/
def spell (a x y n : Fin 16) : String :=
  String.ofList [Text.hexDigit a, Text.hexDigit x, Text.hexDigit y, Text.hexDigit n]

section
variable {a x y n : Fin 16} {op : Operation}

theorem fits_spell (op : Operation) :
    op.fits (spell a x y n) =
      op.pattern.toList.isEqv
        [Text.hexDigit a, Text.hexDigit x, Text.hexDigit y, Text.hexDigit n] admits := by
  rw [fits, spell, String.toList_ofList]

/-- The digits that a pattern fixes lead the tables to its operation. -/
theorem ofFields?_of_fits (known : op ≠ .unsupported) (reads : op.fits (spell a x y n) = true) :
    ofFields? a.val x.val n.val (16 * y.val + n.val) = some op := by
  cases op
  case unsupported => exact absurd rfl known
  case' alu f => cases f
  -- Each letter that is no placeholder gives the value of a digit; the tables then compute.
  all_goals
    simp [fits_spell, pattern, List.isEqv, admits, isPlaceholder, Text.eq_hexDigit_iff] at reads
    simp [Text.hexValue, Text.hexDigit] at reads
    simp only [ofFields?, ← reads]
    rfl

theorem digit_eq {value : Int} (digit : (n.val : Int) = value) : n.val = value.toNat := by omega

theorem digits_eq {value : Int} (byte : 16 * (y.val : Int) + n.val = value) :
    y.val = (value / 16).toNat ∧ n.val = (value % 16).toNat := by omega

/-! What a table answers has a pattern that the looked-up digits fit. -/

theorem fits_ofSystemWord (first : a.val = 0)
    (known : ofSystemWord x.val (16 * y.val + n.val) ≠ .unsupported) :
    (ofSystemWord x.val (16 * y.val + n.val)).fits (spell a x y n) = true := by
  unfold ofSystemWord at known ⊢
  split at known
  case isTrue word =>
    rw [fits_spell, first, digit_eq word.1, (digits_eq word.2).1, (digits_eq word.2).2]
    rfl
  case isFalse other =>
    split at known
    case isTrue word =>
      rw [fits_spell, first, digit_eq word.1, (digits_eq word.2).1, (digits_eq word.2).2]
      rfl
    case isFalse => exact absurd rfl known

theorem fits_ofAluNibble (first : a.val = 8) (known : ofAluNibble n.val ≠ .unsupported) :
    (ofAluNibble n.val).fits (spell a x y n) = true := by
  unfold ofAluNibble at known ⊢
  split at known
  case h_10 => exact absurd rfl known
  all_goals
    rename_i digit
    rw [fits_spell, first, digit_eq digit]
    rfl

theorem fits_ofKeyByte (first : a.val = 0xE)
    (known : ofKeyByte (16 * y.val + n.val) ≠ .unsupported) :
    (ofKeyByte (16 * y.val + n.val)).fits (spell a x y n) = true := by
  unfold ofKeyByte at known ⊢
  split at known
  case h_3 => exact absurd rfl known
  all_goals
    rename_i byte
    rw [fits_spell, first, (digits_eq byte).1, (digits_eq byte).2]
    rfl

theorem fits_ofMiscByte (first : a.val = 0xF)
    (known : ofMiscByte (16 * y.val + n.val) ≠ .unsupported) :
    (ofMiscByte (16 * y.val + n.val)).fits (spell a x y n) = true := by
  unfold ofMiscByte at known ⊢
  split at known
  case h_10 => exact absurd rfl known
  all_goals
    rename_i byte
    rw [fits_spell, first, (digits_eq byte).1, (digits_eq byte).2]
    rfl

theorem fits_of_ofFields? (known : op ≠ .unsupported)
    (decoded : ofFields? a.val x.val n.val (16 * y.val + n.val) = some op) :
    op.fits (spell a x y n) = true := by
  unfold ofFields? at decoded
  split at decoded
  case h_1 opcode =>
    cases decoded
    exact fits_ofSystemWord (digit_eq opcode) known
  case h_9 opcode =>
    cases decoded
    exact fits_ofAluNibble (digit_eq opcode) known
  case h_15 opcode =>
    cases decoded
    exact fits_ofKeyByte (digit_eq opcode) known
  case h_16 opcode =>
    cases decoded
    exact fits_ofMiscByte (digit_eq opcode) known
  case h_17 => cases decoded
  -- Two operations on registers ask for a last digit of zero.
  case h_6 opcode | h_10 opcode =>
    split at decoded
    case isTrue digit =>
      cases decoded
      rw [fits_spell, digit_eq opcode, digit_eq digit]
      rfl
    case isFalse =>
      cases decoded
      exact absurd rfl known
  -- The first digit decides the others.
  all_goals
    rename_i opcode
    cases decoded
    rw [fits_spell, digit_eq opcode]
    rfl

end

end Operation

namespace Instruction
variable (i : Instruction)

/-- The operand fields are nested: each is its first digit in front of the next. -/
theorem toNat_word : i.word.toNat = 4096 * i.opcode.val + i.nnn.toNat := by
  have bound := i.word.isLt
  simp only [opcode, nnn, BitVec.val_toFin, BitVec.extractLsb'_toNat, Nat.shiftRight_eq_div_pow]
  omega

theorem toNat_nnn : i.nnn.toNat = 256 * i.x.val + i.nn.toNat := by
  simp only [nnn, x, nn, BitVec.val_toFin, UInt8.toNat_ofBitVec, BitVec.extractLsb'_toNat,
    Nat.shiftRight_eq_div_pow]
  omega

theorem toNat_nn : i.nn.toNat = 16 * i.y.val + i.n.val := by
  simp only [nn, y, n, BitVec.val_toFin, UInt8.toNat_ofBitVec, BitVec.extractLsb'_toNat,
    Nat.shiftRight_eq_div_pow]
  omega

/-- The four digits of a word are its four nibbles. -/
theorem hex_word : Text.hex 4 i.word.toNat = Operation.spell i.opcode i.x i.y i.n := by
  have word := i.toNat_word
  have nnn := i.toNat_nnn
  have nn := i.toNat_nn
  have bound := i.word.isLt
  have fits : i.word.toNat >>> (4 * (3 + 1)) = 0 := by omega
  have opcode : i.word.toNat / 16 / 16 / 16 % 16 = i.opcode.val := by omega
  have x : i.word.toNat / 16 / 16 % 16 = i.x.val := by omega
  have y : i.word.toNat / 16 % 16 = i.y.val := by omega
  have n : i.word.toNat % 16 = i.n.val := by omega
  rw [Text.hex_natCast fits]
  simp only [Text.lastDigits, Operation.spell, opcode, x, y, n, List.nil_append, List.cons_append]

theorem fits_iff_operation_eq {op : Operation} (known : op ≠ .unsupported) :
    op.fits (Text.hex 4 i.word.toNat) = true ↔ i.operation = op := by
  have decoded := i.operation_eq_ofFields?
  have nn : (i.nn.toNat : Int) = 16 * i.y.val + i.n.val := by
    rw [i.toNat_nn]
    omega
  rw [nn] at decoded
  rw [hex_word]
  constructor
  · intro reads
    rw [Operation.ofFields?_of_fits known reads] at decoded
    exact (Option.some.inj decoded).symm
  · rintro rfl
    exact Operation.fits_of_ofFields? known decoded

theorem toNat_word_ofInt (word : Int) : ((ofInt word).word.toNat : Int) = word % 65536 := by
  simp only [ofInt, BitVec.toNat_ofInt]
  omega

/-- Any integer stands for a word. The tables have an answer for the fields of every
word: it is the operation whose pattern the word's spelling fits, of which there is at
most one, and `unsupported` where there is none. -/
theorem decodes_by_pattern (word : Int) :
    (∀ op : Operation, op ≠ .unsupported →
      (op.fits (Text.hex 4 (word % 65536)) = true ↔ (ofInt word).operation = op)) ∧
    ((ofInt word).operation = .unsupported ↔
      ∀ op : Operation, op ≠ .unsupported → op.fits (Text.hex 4 (word % 65536)) = false) ∧
    (∀ op other : Operation, op ≠ .unsupported → other ≠ .unsupported →
      op.fits (Text.hex 4 (word % 65536)) = true →
      other.fits (Text.hex 4 (word % 65536)) = true → op = other) ∧
    Operation.ofFields? (ofInt word).opcode.val (ofInt word).x.val (ofInt word).n.val
      (ofInt word).nn.toNat = some (ofInt word).operation ∧
    ((ofInt word).word.toNat : Int) = word % 65536 ∧
    (ofInt word).word.toNat = 4096 * (ofInt word).opcode.val + (ofInt word).nnn.toNat ∧
    (ofInt word).nnn.toNat = 256 * (ofInt word).x.val + (ofInt word).nn.toNat ∧
    (ofInt word).nn.toNat = 16 * (ofInt word).y.val + (ofInt word).n.val ∧
    (ofInt word).opcode.val < 16 ∧ (ofInt word).x.val < 16 ∧ (ofInt word).y.val < 16 ∧
    (ofInt word).n.val < 16 ∧ (ofInt word).nn.toNat < 256 ∧ (ofInt word).nnn.toNat < 4096 := by
  rw [← toNat_word_ofInt word]
  generalize ofInt word = i
  have reads {op : Operation} (known : op ≠ .unsupported) :
      op.fits (Text.hex 4 i.word.toNat) = true ↔ i.operation = op :=
    i.fits_iff_operation_eq known
  refine ⟨fun op => reads, ?_, ?_, i.operation_eq_ofFields?, rfl, i.toNat_word, i.toNat_nnn,
    i.toNat_nn, i.opcode.isLt, i.x.isLt, i.y.isLt, i.n.isLt, i.nn.toNat_lt, i.nnn.isLt⟩
  · constructor
    · intro unknown op known
      rw [← Bool.not_eq_true, reads known, unknown]
      exact known.symm
    · intro none
      by_cases known : i.operation = .unsupported
      · exact known
      · have own := none i.operation known
        rw [(reads known).mpr rfl] at own
        cases own
  · intro op other known otherKnown first second
    exact ((reads known).mp first).symm.trans ((reads otherKnown).mp second)

end Instruction

end Chip8
