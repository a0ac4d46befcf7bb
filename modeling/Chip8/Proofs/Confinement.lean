import Chip8.Proofs.Lockstep

/-! Where the dialect, the time and the keys get into a program. Two machines that differ
only in one of them stay the same in all else, cycle after cycle and with the same
outcomes, until the first of them comes to an instruction that looks at it. -/

set_option autoImplicit false

namespace Chip8.Machine

/-- The machine with its program read in a dialect. -/
def inDialect (m : Machine) (dialect : Dialect) : Machine :=
  { m with state := { m.state with dialect } }

/-- The machine with other timers and another clock. -/
def atTime (m : Machine) (delay sound : UInt8) (clock : Clock Number Float) : Machine :=
  { m with state := { m.state with delay, sound }, clock }

def withSound (m : Machine) (sound : UInt8) : Machine :=
  { m with state := { m.state with sound } }

/-- The machine with other samples to come. -/
def fed (m : Machine) (script : List Sample) : Machine := { m with script }

theorem amid_eq {m : Machine} {around : Surroundings} {dialect : Dialect} {delay sound : UInt8}
    {clock : Clock Number Float} {script : List Sample} (sameDialect : around.dialect = dialect)
    (sameDelay : around.timers .delay = delay) (sameSound : around.timers .sound = sound)
    (sameClock : around.clock = clock) (sameScript : around.script = script) :
    m.amid around =
      { m with state := { m.state with dialect, delay, sound }, clock, script } := by
  subst sameDialect sameDelay sameSound sameClock sameScript
  rfl

section
variable {m : Machine}

theorem cycle_inDialect {dialect : Dialect} (plain : m.fetches Operation.readsDialect = false) :
    (m.inDialect dialect).cycle = (m.cycle.1.inDialect dialect, m.cycle.2) := by
  have unseen : m.Unseen (m.inDialect dialect).surroundings :=
    { m.unseen_surroundings with
      dialect := fun reads => absurd (plain.symm.trans reads) (by decide)
      clock := .inl rfl }
  obtain ⟨next, ends, follows⟩ := cycle_amid unseen
  rw [amid_eq follows.dialect (follows.timer rfl .delay rfl) (follows.timer rfl .sound rfl)
    (follows.clock rfl) (follows.script.trans m.counted.script.symm)] at ends
  exact ends

theorem cycle_atTime {delay sound : UInt8} {clock : Clock Number Float}
    (unread : m.fetches Operation.readsDelay = false) (timed : m.Timed)
    (alsoTimed : (m.atTime delay sound clock).Timed) :
    ∃ delay' sound' clock', (m.atTime delay sound clock).cycle =
      (m.cycle.1.atTime delay' sound' clock', m.cycle.2) := by
  have unseen : m.Unseen (m.atTime delay sound clock).surroundings :=
    { m.unseen_surroundings with
      delay := fun reads => absurd (unread.symm.trans reads) (by decide)
      clock := .inr ⟨timed, alsoTimed⟩ }
  obtain ⟨next, ends, follows⟩ := cycle_amid unseen
  rw [amid_eq (follows.dialect.trans m.dialect_cycle.symm) rfl rfl rfl
    (follows.script.trans m.counted.script.symm)] at ends
  exact ⟨_, _, _, ends⟩

theorem cycle_withSound (m : Machine) (sound : UInt8) :
    ∃ louder, (m.withSound sound).cycle = (m.cycle.1.withSound louder, m.cycle.2) := by
  have unseen : m.Unseen (m.withSound sound).surroundings :=
    { m.unseen_surroundings with delay := fun _ => rfl, clock := .inl rfl }
  obtain ⟨next, ends, follows⟩ := cycle_amid unseen
  rw [amid_eq (follows.dialect.trans m.dialect_cycle.symm) (follows.timer rfl .delay rfl) rfl
    (follows.clock rfl) (follows.script.trans m.counted.script.symm)] at ends
  exact ⟨_, ends⟩

theorem cycle_fed {script : List Sample} (stays : m.poll.1.quit = false)
    (alsoStays : (script.headD .idle).quit = false)
    (same : m.fetches Operation.readsKey = true → (script.headD .idle).key = m.poll.1.key) :
    (m.fed script).cycle = (m.cycle.1.fed script.tail, m.cycle.2) := by
  have unseen : m.Unseen (m.fed script).surroundings :=
    { m.unseen_surroundings with
      quit := alsoStays.trans stays.symm
      key := same
      clock := .inl rfl }
  obtain ⟨next, ends, follows⟩ := cycle_amid unseen
  rw [amid_eq (follows.dialect.trans m.dialect_cycle.symm) (follows.timer rfl .delay rfl)
    (follows.timer rfl .sound rfl) (follows.clock rfl) follows.script] at ends
  exact ends

end

theorem dialect_performAll (m : Machine) (commands : List Command) :
    (m.performAll commands).state.dialect = m.state.dialect :=
  kept_performAll (fun _ k => k.state.dialect = m.state.dialect)
    (fun _ k same => (dialect_cycle k).trans same) (fun _ _ _ same => same) rfl commands

/-- No command changes the dialect, and it makes no difference before a jump with offset, a
shift or a block transfer is fetched. -/
theorem dialect_confined (m : Machine) :
    (∀ commands, (m.performAll commands).state.dialect = m.state.dialect) ∧
    ∀ (dialect : Dialect) (count : Nat),
      (∀ k < count, (m.after k).fetches Operation.readsDialect = false) →
      (m.inDialect dialect).after count = (m.after count).inDialect dialect ∧
      ∀ k < count, ((m.inDialect dialect).after k).cycle.2 = (m.after k).cycle.2 := by
  refine ⟨m.dialect_performAll, ?_⟩
  intro dialect count plain
  refine lockstep (fun _ m n => n = m.inDialect dialect) rfl ?_
  intro k within related
  rw [related, cycle_inDialect (plain k within)]
  exact ⟨rfl, rfl⟩

/-- Draws a random byte and a sprite, meets an unsupported word and returns to nowhere. -/
def plain : Machine :=
  started { State.initial ⟨0, 7⟩ .classic with
    memory := Memory.zero.write Memory.programStart
      [0xC0, 0x0F, 0x80, 0x04, 0xD0, 0x05, 0x00, 0x00, 0x00, 0xEE] } []

theorem dialect_confined_plain :
    (∀ k < 6, (plain.after k).fetches Operation.readsDialect = false) ∧
    (plain.inDialect .modern).after 6 = (plain.after 6).inDialect .modern ∧
    ((plain.inDialect .modern).after 5).cycle.2 = (plain.after 5).cycle.2 ∧
    ((plain.after 6).frames.size = 1 ∧ (plain.after 5).cycle.2.toOption = none) ∧
    (plain.performAll [.run (some 3), .cycle]).state.dialect = .classic := by
  obtain ⟨kept, same⟩ := dialect_confined plain
  have unread : ∀ k < 6, (plain.after k).fetches Operation.readsDialect = false := by
    decide +kernel
  obtain ⟨later, outcomes⟩ := same .modern 6 unread
  exact ⟨unread, later, outcomes 5 (by decide), by decide +kernel, kept _⟩

/-- The timers and the clock do not matter until the delay timer is read, as long as the
clocks tell their ticks; the sound timer never matters. -/
theorem time_confined (m : Machine) (sound : UInt8) (count : Nat) :
    (∀ (delay : UInt8) (clock : Clock Number Float),
      (∀ k < count, (m.after k).Timed ∧ ((m.atTime delay sound clock).after k).Timed) →
      (∀ k < count, (m.after k).fetches Operation.readsDelay = false) →
      (∃ delay' sound' clock', (m.atTime delay sound clock).after count =
        (m.after count).atTime delay' sound' clock') ∧
      ∀ k < count, ((m.atTime delay sound clock).after k).cycle.2 = (m.after k).cycle.2) ∧
    (∃ sound', (m.withSound sound).after count = (m.after count).withSound sound') ∧
    ∀ k < count, ((m.withSound sound).after k).cycle.2 = (m.after k).cycle.2 := by
  constructor
  · intro delay clock timed unread
    refine lockstep (fun _ m n => ∃ delay sound clock, n = m.atTime delay sound clock)
      ⟨delay, sound, clock, rfl⟩ ?_
    rintro k within ⟨_, _, _, related⟩
    obtain ⟨firstTimed, secondTimed⟩ := timed k within
    rw [related] at secondTimed ⊢
    obtain ⟨_, _, _, ends⟩ := cycle_atTime (unread k within) firstTimed secondTimed
    rw [ends]
    exact ⟨⟨_, _, _, rfl⟩, rfl⟩
  · refine lockstep (fun _ m n => ∃ sound, n = m.withSound sound) ⟨sound, rfl⟩ ?_
    rintro k within ⟨_, related⟩
    rw [related]
    obtain ⟨_, ends⟩ := cycle_withSound (m.after k) _
    rw [ends]
    exact ⟨⟨_, rfl⟩, rfl⟩

/-- Sets the delay timer and draws without end. -/
def drawing : Machine :=
  started { State.initial ⟨0, 0⟩ .classic with
    memory := Memory.zero.write Memory.programStart
      [0x60, 0x05, 0xF0, 0x15, 0xD0, 0x05, 0x12, 0x04] } []

/-- A clock of another rate, in the middle of a period. -/
def faster : Clock Number Float := ⟨.float 0.25, 1.0 / 50.0, 0.01⟩

theorem time_confined_drawing :
    (∀ k < 4, (drawing.after k).Timed ∧ ((drawing.atTime 9 200 faster).after k).Timed) ∧
    (∀ k < 4, (drawing.after k).fetches Operation.readsDelay = false) ∧
    (∃ delay' sound' clock', (drawing.atTime 9 200 faster).after 4 =
      (drawing.after 4).atTime delay' sound' clock') ∧
    (∃ sound', (drawing.withSound 200).after 4 = (drawing.after 4).withSound sound') := by
  have timed : ∀ k < 4,
      (drawing.after k).Timed ∧ ((drawing.atTime 9 200 faster).after k).Timed := by
    decide +kernel
  have unread : ∀ k < 4, (drawing.after k).fetches Operation.readsDelay = false := by
    decide +kernel
  obtain ⟨other, quiet, -⟩ := time_confined drawing 200 4
  exact ⟨timed, unread, (other 9 faster timed unread).1, quiet⟩

theorem stays_getD {script : List Sample} (stays : ∀ sample ∈ script, sample.quit = false)
    (k : Nat) : (script.getD k .idle).quit = false := by
  rw [List.getD_eq_getElem?_getD]
  cases found : script[k]? with
  | none => rfl
  | some sample => exact stays sample (List.mem_of_getElem? found)

/-- Keys do not matter but in the cycles that skip by a key or wait for one. -/
theorem keys_confined {m : Machine} {other : List Sample} {count : Nat}
    (stays : ∀ sample ∈ m.script, sample.quit = false)
    (alsoStays : ∀ sample ∈ other, sample.quit = false)
    (same : ∀ k < count, (m.after k).fetches Operation.readsKey = true →
      (other.getD k .idle).key = (m.script.getD k .idle).key) :
    (m.fed other).after count = (m.after count).fed (other.drop count) ∧
    ∀ k < count, ((m.fed other).after k).cycle.2 = (m.after k).cycle.2 := by
  refine lockstep (fun k m n => n = m.fed (other.drop k)) rfl ?_
  intro k within related
  have ends : ((m.after k).fed (other.drop k)).cycle =
      ((m.after k).cycle.1.fed (other.drop k).tail, (m.after k).cycle.2) := by
    apply cycle_fed
    · rw [poll_after]
      exact stays_getD stays k
    · rw [headD_drop]
      exact stays_getD alsoStays k
    · rw [headD_drop, poll_after]
      exact same k within
  rw [related, ends, List.tail_drop]
  exact ⟨rfl, rfl⟩

/-- Skips by a key and then only counts. -/
def listening : Machine :=
  started { State.initial ⟨0, 0⟩ .classic with
    memory := Memory.zero.write Memory.programStart
      [0xE0, 0x9E, 0x00, 0xEE, 0x71, 0x01, 0x12, 0x04] } [⟨some 0, false⟩, ⟨some 7, false⟩]

theorem keys_confined_listening :
    let other : List Sample := [⟨some 0, false⟩, .idle, ⟨some 3, false⟩]
    (∀ k < 4, (listening.after k).fetches Operation.readsKey = true →
      (other.getD k .idle).key = (listening.script.getD k .idle).key) ∧
    (listening.fed other).after 4 = (listening.after 4).fed [] ∧
    ((listening.fed other).after 3).cycle.2 = (listening.after 3).cycle.2 := by
  intro other
  have same : ∀ k < 4, (listening.after k).fetches Operation.readsKey = true →
      (other.getD k .idle).key = (listening.script.getD k .idle).key := by
    decide +kernel
  have stays : ∀ sample ∈ listening.script, sample.quit = false := by decide
  have alsoStays : ∀ sample ∈ other, sample.quit = false := by decide
  obtain ⟨later, outcomes⟩ := keys_confined stays alsoStays same
  exact ⟨same, later, outcomes 3 (by decide)⟩

end Chip8.Machine
