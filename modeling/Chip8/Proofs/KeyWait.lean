import Chip8.Proofs.Accounting
import Chip8.Proofs.ExactClock
import Chip8.Proofs.Upkeep
import Mathlib.Algebra.Order.BigOperators.Group.Finset

/-! Waiting for a key. FX0A moves past itself and back again as long as there is none, so
that the machine stays where it is, whole, while only its timers go on; the first key
ends the wait and goes into VX. -/

set_option autoImplicit false

namespace Chip8

namespace State

/-- The word at the program counter is FX0A. -/
structure Waits (s : State) (x : Fin 16) : Prop where
  inside : s.pc.toNat ≤ 0xFFE
  high : s.memory.read s.pc.toNat = UInt8.ofNat (0xF0 + x.val)
  low : s.memory.read (s.pc.toNat + 1) = 0x0A

/-- What a wait comes to: nothing without a key, and with one the next instruction, with
the key's low digit in VX. -/
def heard (s : State) (x : Fin 16) : Option Key → State
  | none => s
  | some key =>
      { s with pc := s.pc + 2, registers := s.registers.write x (UInt8.ofNat (key % 16).toNat) }

/-- What both timers hold after some ticks. They stop at zero. -/
structure CountedDown (s : State) (ticks : Int) (delay sound : UInt8) : Prop where
  delay : (delay.toNat : Int) = max (s.delay.toNat - ticks) 0
  sound : (sound.toNat : Int) = max (s.sound.toNat - ticks) 0

theorem waitForKey_word (x : Fin 16) :
    (Instruction.ofBytes (UInt8.ofNat (0xF0 + x.val)) 0x0A).operation = .waitForKey ∧
      (Instruction.ofBytes (UInt8.ofNat (0xF0 + x.val)) 0x0A).x = x := by
  revert x
  decide

section
variable {s : State} {x : Fin 16}

theorem instruct_of_waits (waits : s.Waits x) (key : Option Key) :
    ∃ i, i.operation = .waitForKey ∧ Machine.instruct s key = .ok (i, s.heard x key) := by
  obtain ⟨inside, high, low⟩ := waits
  obtain ⟨operation, register⟩ := waitForKey_word x
  have fetch : s.fetch =
      .ok (Instruction.ofBytes (UInt8.ofNat (0xF0 + x.val)) 0x0A, { s with pc := s.pc + 2 }) := by
    have within : s.pc.toNat + 2 ≤ Memory.size := Nat.add_le_add_right inside 2
    rw [fetch_eq, if_pos within, high, low]
  refine ⟨_, operation, Machine.instruct_eq_ok_iff.mpr ⟨_, fetch, ?_⟩⟩
  unfold execute
  rw [operation]
  cases key with
  | none =>
    simp only [waitForKey, heard]
    rw [UInt16.add_sub_cancel]
  | some key =>
    simp only [waitForKey, heard, register]
    rfl

theorem Waits.elapse (waits : s.Waits x) (ticks : Int) : (s.elapse ticks).Waits x :=
  ⟨waits.inside, waits.high, waits.low⟩

theorem heard_elapse (key : Option Key) (ticks : Int) :
    (s.elapse ticks).heard x key = (s.heard x key).elapse ticks := by
  cases key <;> rfl

/-- Ticks change the timers and nothing else. -/
theorem elapse_eq (s : State) {ticks : Int} (forward : 0 ≤ ticks) :
    ∃ delay sound, s.CountedDown ticks delay sound ∧ s.elapse ticks = { s with delay, sound } := by
  have counted (timer : Timer) :
      (((s.elapse ticks).timer timer).toNat : Int) = max ((s.timer timer).toNat - ticks) 0 := by
    rw [timer_elapse]
    omega
  exact ⟨_, _, ⟨counted .delay, counted .sound⟩, rfl⟩

/-- The key that ends a wait goes into VX, and no other register changes. -/
theorem heard_some (s : State) (x : Fin 16) (key : Key) :
    ∃ registers : Registers, ((registers.read x).toNat : Int) = key % 16 ∧
      (∀ r ≠ x, registers.read r = s.registers.read r) ∧
      s.heard x (some key) = { s with pc := s.pc + 2, registers } := by
  refine ⟨_, ?_, ?_, rfl⟩
  · rw [Registers.read_write_self, UInt8.toNat_ofNat']
    omega
  · intro r other
    exact Registers.read_write_of_ne _ _ other

theorem elapse_zero (s : State) : s.elapse 0 = s := by
  simp [State.elapse]

/-- Stopping at zero once comes to the same as stopping there twice. -/
theorem elapse_elapse (s : State) {first : Int} (forward : 0 ≤ first) (second : Int) :
    (s.elapse first).elapse second = s.elapse (first + max second 0) := by
  have sum : (first + max second 0).toNat = first.toNat + second.toNat := by omega
  have timer (t : UInt8) : (UInt8.ofNat (t.toNat - first.toNat)).toNat - second.toNat =
      t.toNat - (first.toNat + second.toNat) := by
    have bound := t.toNat_lt
    rw [UInt8.toNat_ofNat', Nat.mod_eq_of_lt (by omega), Nat.sub_sub]
  simp only [State.elapse, sum, timer]

end

end State

namespace Machine

/-- The machine some cycles later, in a state that they led to without drawing or
reporting anything. -/
def later (m : Machine) (count : Nat) (state : State) : Machine :=
  { m with
    state
    clock := m.clock.after count
    script := m.script.drop count
    cycles := m.cycles + count
    polls := m.polls + count
    sleeps := m.sleeps + count }

section
variable {m : Machine} {x : Fin 16} {count : Nat} {ticks : Nat → Int}

theorem later_later (m : Machine) (count : Nat) (first second : State) :
    (m.later count first).later 1 second = m.later (count + 1) second := by
  simp [later, Clock.after, List.drop_drop, Nat.add_assoc]

/-- One cycle of the wait. -/
theorem cycle_of_waits {told : Int} (waits : m.state.Waits x) (goes : m.poll.1.quit = false)
    (answers : m.clock.answer 0 = .ok told) :
    m.cycle = (m.later 1 ((m.state.heard x m.poll.1.key).elapse told), .ok .running) := by
  obtain ⟨i, operation, runs⟩ := State.instruct_of_waits waits m.poll.1.key
  have quiet : i.notices = [] := by simp only [Instruction.notices, operation]
  have unseen : i.refreshesDisplay = false := by simp only [Instruction.refreshesDisplay, operation]
  have reading : m.clock.advance = (m.clock.advance.1, .ok told) := Prod.ext rfl answers
  rw [cycle, cycleWith_commit goes runs, display, unseen, quiet, poll_snd, reading]
  simp [commit, report, later, Clock.after]

/-- What the timers of a wait of some cycles lose, if they have it. -/
def waited (ticks : Nat → Int) (count : Nat) : Int := ∑ k ∈ Finset.range count, max (ticks k) 0

theorem waited_nonneg (ticks : Nat → Int) (count : Nat) : 0 ≤ waited ticks count :=
  Finset.sum_nonneg fun _ _ => le_max_right _ _

theorem poll_later (m : Machine) (count : Nat) (state : State) :
    (m.later count state).poll.1 = m.script.getD count .idle :=
  (poll_fst _).trans (headD_drop m.script count)

/-- One more cycle of the wait, with a key or without. -/
theorem cycle_later {sample : Sample} {last : Int} (waits : m.state.Waits x)
    (polled : m.script.getD count .idle = sample) (goes : sample.quit = false)
    (answers : m.clock.answer count = .ok last) :
    (m.later count (m.state.elapse (waited ticks count))).cycle =
      (m.later (count + 1)
        ((m.state.heard x sample.key).elapse (waited ticks count + max last 0)),
        .ok .running) := by
  let blocked := m.later count (m.state.elapse (waited ticks count))
  have now : blocked.poll.1 = sample := (m.poll_later count _).trans polled
  have once : blocked.cycle = _ :=
    cycle_of_waits (waits.elapse _) ((congrArg Sample.quit now).trans goes) answers
  have state : (blocked.state.heard x sample.key).elapse last =
      (m.state.heard x sample.key).elapse (waited ticks count + max last 0) :=
    (congrArg (State.elapse · last) (State.heard_elapse _ _)).trans
      (State.elapse_elapse _ (waited_nonneg ticks count) last)
  rw [once, now, later_later, state]

theorem cyclesUpTo_of_waits (waits : m.state.Waits x)
    (silent : ∀ k < count, m.script.getD k .idle = .idle)
    (told : ∀ k < count, m.clock.answer k = .ok (ticks k)) :
    cyclesUpTo count m = (m.later count (m.state.elapse (waited ticks count)), .ok .running) := by
  induction count with
  | zero =>
    rw [waited, Finset.sum_range_zero, State.elapse_zero]
    rfl
  | succ count ih =>
    have before := ih (fun k within => silent k (Nat.lt_succ_of_lt within))
      (fun k within => told k (Nat.lt_succ_of_lt within))
    have more : waited ticks (count + 1) = waited ticks count + max (ticks count) 0 :=
      Finset.sum_range_succ _ count
    have once : (m.later count (m.state.elapse (waited ticks count))).cycle =
        (m.later (count + 1) (m.state.elapse (waited ticks (count + 1))), .ok .running) := by
      rw [more]
      exact cycle_later waits (silent count (Nat.lt_succ_self count)) rfl
        (told count (Nat.lt_succ_self count))
    rw [cyclesUpTo_add before 1, cyclesUpTo, once]
    rfl

/-- FX0A blocks. In cycles without a key only the timers go on, by what the clock tells and
not below zero, and the key that ends the wait finds everything else as it was. -/
theorem waits_for_key (waits : m.state.Waits x)
    (silent : ∀ k < count, m.script.getD k .idle = .idle)
    (told : ∀ k < count, m.clock.answer k = .ok (ticks k)) :
    ∃ delay sound, m.state.CountedDown (waited ticks count) delay sound ∧
      let blocked := m.later count { m.state with delay, sound }
      cyclesUpTo count m = (blocked, .ok .running) ∧
      ∀ key last, m.script.getD count .idle = ⟨some key, false⟩ →
        m.clock.answer count = .ok last →
        ∃ (registers : Registers) (delay sound : UInt8),
          ((registers.read x).toNat : Int) = key % 16 ∧
          (∀ r ≠ x, registers.read r = m.state.registers.read r) ∧
          m.state.CountedDown (waited ticks count + max last 0) delay sound ∧
          (m.state.pc + 2).toNat = m.state.pc.toNat + 2 ∧
          blocked.cycle =
            (m.later (count + 1) { m.state with pc := m.state.pc + 2, registers, delay, sound },
              .ok .running) := by
  have forward := waited_nonneg ticks count
  obtain ⟨delay, sound, counted, blocked⟩ := m.state.elapse_eq forward
  refine ⟨delay, sound, counted, ?_⟩
  rw [← blocked]
  refine ⟨cyclesUpTo_of_waits waits silent told, ?_⟩
  intro key last pressed answered
  obtain ⟨registers, digit, others, heard⟩ := m.state.heard_some x key
  obtain ⟨delay, sound, counted, ended⟩ :=
    (m.state.heard x (some key)).elapse_eq (Int.add_nonneg forward (le_max_right last 0))
  have once : (m.later count (m.state.elapse (waited ticks count))).cycle = _ :=
    cycle_later waits pressed rfl answered
  rw [ended, heard] at once
  refine ⟨registers, delay, sound, digit, others, ⟨counted.delay, counted.sound⟩, ?_, once⟩
  have room : m.state.pc.toNat + 2 < 0x10000 := by
    have inside := waits.inside
    omega
  rw [UInt16.toNat_add]
  exact Nat.mod_eq_of_lt room

end

/-- Waits at the very end of memory, with both timers on. -/
def waiting : Machine :=
  { started { State.initial ⟨0, 0⟩ .classic with
      pc := 0xFFE
      delay := 9
      sound := 1
      memory := Memory.zero.write 0xFFE [0xF3, 0x0A] } [.idle, .idle, ⟨some 0x1B, false⟩] with
    clock := ⟨.float 0.05, 1.0 / 60.0, 0.0⟩ }

/-- Three ticks a cycle: the sound ends in the first, the delay with the key. -/
theorem waits_for_key_waiting :
    let blocked := waiting.later 2 { waiting.state with delay := 3, sound := 0 }
    waiting.state.Waits 3 ∧
    cyclesUpTo 2 waiting = (blocked, .ok .running) ∧
    ∃ registers : Registers, registers.read 3 = 0xB ∧
      (∀ r ≠ 3, registers.read r = waiting.state.registers.read r) ∧
      blocked.cycle =
        (waiting.later 3
          { waiting.state with pc := 0x1000, registers, delay := 0, sound := 0 },
          .ok .running) := by
  intro blocked
  have waits : waiting.state.Waits 3 := ⟨by decide, by decide +kernel, by decide +kernel⟩
  have told : ∀ k < 3, waiting.clock.answer k = .ok 3 := by
    intro k within
    apply Fallible.toOption_eq_some_iff.mp
    revert k
    decide +kernel
  have silent : ∀ k < 2, waiting.script.getD k .idle = .idle := by decide
  obtain ⟨delay, sound, counted, ran, ended⟩ := waits_for_key waits silent
    (fun k within => told k (Nat.lt_succ_of_lt within))
  obtain rfl : delay = 3 := UInt8.toNat_inj.mp (Int.ofNat_inj.mp counted.delay)
  obtain rfl : sound = 0 := UInt8.toNat_inj.mp (Int.ofNat_inj.mp counted.sound)
  obtain ⟨registers, delay, sound, digit, others, counted, -, ends⟩ :=
    ended 0x1B 3 rfl (told 2 (by decide))
  obtain rfl : delay = 0 := UInt8.toNat_inj.mp (Int.ofNat_inj.mp counted.delay)
  obtain rfl : sound = 0 := UInt8.toNat_inj.mp (Int.ofNat_inj.mp counted.sound)
  have key : registers.read 3 = 0xB := UInt8.toNat_inj.mp (Int.ofNat_inj.mp digit)
  exact ⟨waits, ran, registers, key, others, ends⟩

end Machine

end Chip8
