import Chip8.Proofs.Course
import Chip8.Proofs.Upkeep
import Mathlib.Logic.Function.Iterate

/-! The random bytes that a program draws. They come off one stream of keys, which only
a committed draw moves along, so they are decided by the key at the start and by how
many were drawn before. What the keys yield plays no part in it, so the generator is any. -/

set_option autoImplicit false

namespace Chip8.Machine

section
variable [Random.Generator]

namespace Turn

/-- Whether the cycle commits an instruction that draws a random byte. -/
def rolls (t : Turn) : Bool := t.runs .random

/-- The cycle's instruction leaves a byte in VX, cut down by its mask NN. -/
def Stores (t : Turn) (byte : UInt8) : Prop :=
  ∃ i, t.instruction? = some i ∧ t.stop.state.registers.read i.x = byte &&& i.nn

section
variable {t : Turn}

theorem random_of_rolls (rolls : t.rolls = true) :
    t.stop.state.random = t.start.state.random.next := by
  obtain ⟨i, commits, operation⟩ := runs_iff.mp rolls
  obtain ⟨after, ticks, executes, state⟩ := committed_of_instruction? commits
  rw [state]
  exact (State.upkeep_of_execute executes).random.trans (if_pos operation)

theorem random_of_not_rolls (quiet : t.rolls = false) :
    t.stop.state.random = t.start.state.random := by
  cases t.result with
  | kept _ _ state => rw [state]
  | committed i after ticks instruction _ executes state =>
    have other : i.operation ≠ .random := fun operation =>
      Bool.eq_false_iff.mp quiet (runs_iff.mpr ⟨i, instruction, operation⟩)
    rw [state]
    exact (State.upkeep_of_execute executes).random.trans (if_neg other)

theorem stores_of_rolls (rolls : t.rolls = true) : t.Stores t.start.state.random.byte := by
  obtain ⟨i, commits, operation⟩ := runs_iff.mp rolls
  obtain ⟨after, ticks, executes, state⟩ := committed_of_instruction? commits
  simp only [State.execute, operation] at executes
  cases executes
  refine ⟨i, commits, ?_⟩
  rw [state]
  exact Registers.read_write_self _ _ _

end

end Turn

/-- The cycles that draw a random byte, oldest first. -/
def rolled (past : List Turn) : List Turn := past.filter Turn.rolls

/-- The keys of a course: that of each draw, and the one that is left. -/
structure Stream (key : Random.Key) (past : List Turn) (m : Machine) : Prop where
  drawn : ∀ (k : Nat) (turn : Turn), (rolled past)[k]? = some turn →
    turn.start.state.random = Random.Key.next^[k] key
  left : m.state.random = Random.Key.next^[(rolled past).length] key

section
variable {start m : Machine} {past : List Turn} {key : Random.Key} {t : Turn}

theorem rolled_concat_of_rolls (rolls : t.rolls = true) :
    rolled (past ++ [t]) = rolled past ++ [t] := by
  rw [rolled, List.filter_append, List.filter_cons_of_pos rolls]
  rfl

theorem rolled_concat_of_not_rolls (quiet : t.rolls = false) :
    rolled (past ++ [t]) = rolled past := by
  rw [rolled, List.filter_append, List.filter_cons_of_neg (Bool.eq_false_iff.mp quiet)]
  exact List.append_nil _

theorem Stream.cycle (stream : Stream key past t.start) : Stream key (past ++ [t]) t.stop := by
  cases rolls : t.rolls with
  | false =>
    constructor
    · rw [rolled_concat_of_not_rolls rolls]
      exact stream.drawn
    · rw [rolled_concat_of_not_rolls rolls, Turn.random_of_not_rolls rolls]
      exact stream.left
  | true =>
    constructor
    · intro k turn found
      rw [rolled_concat_of_rolls rolls] at found
      -- The last draw takes the key that the draws before it have left.
      obtain before | last := Nat.lt_or_ge k (rolled past).length
      · rw [List.getElem?_append_left before] at found
        exact stream.drawn k turn found
      · rw [List.getElem?_append_right last, List.getElem?_singleton] at found
        split at found
        case isTrue first =>
          cases found
          rw [stream.left, Nat.le_antisymm (Nat.sub_eq_zero_iff_le.mp first) last]
        case isFalse => cases found
    · rw [rolled_concat_of_rolls rolls, List.length_append, List.length_singleton,
        Function.iterate_succ_apply', Turn.random_of_rolls rolls, stream.left]

theorem Stream.stores (stream : Stream key past m) {k : Nat}
    (found : (rolled past)[k]? = some t) : t.Stores (Random.Key.next^[k] key).byte := by
  rw [← stream.drawn k t found]
  exact Turn.stores_of_rolls (List.mem_filter.mp (List.mem_of_getElem? found)).2

theorem stream_of_course (course : Course start past m) : Stream start.state.random past m := by
  induction course with
  | start => exact ⟨by simp [rolled], rfl⟩
  | @cycle past n _ reading ih => exact Stream.cycle (t := ⟨n, reading⟩) ih
  | report _ _ ih => exact ⟨ih.drawn, ih.left⟩

end

/-- A draw stores the byte of its place in the stream, cut down by its mask, and nothing
but a draw moves the stream along. Whatever else two courses from one key do, their draws
of one place store the same byte, each under its own mask. -/
theorem random_stream {start m : Machine} {past : List Turn} (course : Course start past m) :
    m.state.random = Random.Key.next^[(rolled past).length] start.state.random ∧
    (∀ (k : Nat) (turn : Turn), (rolled past)[k]? = some turn →
      turn.Stores (Random.Key.next^[k] start.state.random).byte) ∧
    (∀ turn ∈ past, turn.rolls = false → turn.stop.state.random = turn.start.state.random) ∧
    (∀ other others n, Course other others n → other.state.random = start.state.random →
      ∀ (k : Nat) (first second : Turn), (rolled past)[k]? = some first →
        (rolled others)[k]? = some second → ∃ raw, first.Stores raw ∧ second.Stores raw) := by
  have stream := stream_of_course course
  refine ⟨stream.left, ?_, ?_, ?_⟩
  · intro k turn found
    exact stream.stores found
  · intro turn _ quiet
    exact Turn.random_of_not_rolls quiet
  · intro other others n beside seed k first second found again
    have second := (stream_of_course beside).stores again
    rw [seed] at second
    exact ⟨_, stream.stores found, second⟩

end

/-- A machine with a program, a dialect and the key of the seed seven. -/
def seeded (dialect : Dialect) (program : List UInt8) : Machine :=
  started { State.initial ⟨0, 7⟩ dialect with
    memory := Memory.zero.write Memory.programStart program } []

/-- Draws twice. -/
def rolling : Turn := .own (seeded .classic [0xC0, 0xFF, 0xC1, 0x0F])

/-- Draws twice, under other masks and with a skip in between. -/
def gambling : Turn := .own (seeded .modern [0xC2, 0xF0, 0x40, 0x01, 0x00, 0x00, 0xC3, 0x3C])

theorem random_stream_gambling :
    let second := rolling.next 1
    let skip := gambling.next 0
    let last := skip.next 2
    last.stop.state.random = Random.Key.next^[2] ⟨0, 7⟩ ∧
    second.Stores (Random.Key.next^[1] ⟨0, 7⟩).byte ∧
    skip.stop.state.random = skip.start.state.random ∧
    (∃ raw, second.Stores raw ∧ last.Stores raw) ∧
    (rolling.start.performAll [.run (some 2)]).state.random = Random.Key.next^[2] ⟨0, 7⟩ := by
  intro second skip last
  have rolls : Course rolling.start [rolling, second] second.stop :=
    (Course.start.cycle rolling.reading).next 1
  have gambles : Course gambling.start [gambling, skip, last] last.stop :=
    ((Course.start.cycle gambling.reading).next 0).next 2
  have drawn : rolled [rolling, second] = [rolling, second] := by
    have first : rolling.rolls = true := by decide +kernel
    have again : second.rolls = true := by decide +kernel
    simp [rolled, first, again]
  have taken : rolled [gambling, skip, last] = [gambling, last] := by
    have first : gambling.rolls = true := by decide +kernel
    have quiet : skip.rolls = false := by decide +kernel
    have again : last.rolls = true := by decide +kernel
    simp [rolled, first, quiet, again]
  obtain ⟨-, stores, -, agrees⟩ := random_stream rolls
  obtain ⟨left, -, quiet, -⟩ := random_stream gambles
  obtain ⟨runs, -⟩ := random_stream (course_performAll rolling.start [.run (some 2)])
  rw [taken] at left
  have twice : (rolled ((rolling.start.history [.run (some 2)]).map .own)).length = 2 := by
    decide +kernel
  rw [twice] at runs
  have again : (rolled [rolling, second])[1]? = some second := by rw [drawn]; rfl
  have later : (rolled [gambling, skip, last])[1]? = some last := by rw [taken]; rfl
  exact ⟨left, stores 1 second again, quiet skip (by simp) (by decide +kernel),
    agrees _ _ _ gambles rfl 1 second last again later, runs⟩

end Chip8.Machine
