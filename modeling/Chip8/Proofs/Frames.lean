import Chip8.Proofs.Effects
import Chip8.Proofs.History

/-! The display follows the screen. Frames are handed out for the operation of an
instruction and not for a change of the screen, before the state is committed, so that
they agree rests on two facts: no other operation touches the screen, and a cycle that
fails hands out nothing, unless it is the clock that fails. -/

set_option autoImplicit false

namespace Chip8.Machine

/-- The clock tells the ticks of the next cycle, if the cycle comes to ask for them. -/
def Timed (m : Machine) : Prop := ∀ e, m.cycle.2 ≠ .error (.arithmetic e)

instance (m : Machine) : Decidable m.Timed :=
  match h : m.cycle.2 with
  | .error (.arithmetic e) => isFalse fun timed => timed e h
  | .error (.fault _) => isTrue fun e => by simp [h]
  | .ok _ => isTrue fun e => by simp [h]

/-- The screen right after the next cycle, if that commits a draw or a clearing. -/
def shown? (m : Machine) : Option Screen :=
  match m.committed? with
  | none => none
  | some i =>
      if i.operation = .draw ∨ i.operation = .clearScreen then some m.cycle.1.state.screen
      else none

theorem refreshesDisplay_iff (i : Instruction) :
    i.refreshesDisplay = true ↔ i.operation = .draw ∨ i.operation = .clearScreen := by
  unfold Instruction.refreshesDisplay
  cases i.operation <;> simp

section
variable {m : Machine}

/-- No cycle changes the screen but the ones that show it. -/
theorem screen_cycle : m.cycle.1.state.screen = m.shown?.getD m.state.screen := by
  unfold shown?
  cases commits : m.committed? with
  | none => rw [state_of_committed?_none commits]; rfl
  | some i =>
    by_cases shows : i.operation = .draw ∨ i.operation = .clearScreen
    · simp only [if_pos shows, Option.getD_some]
    · obtain ⟨after, ticks, runs, state⟩ := instruct_of_committed? commits
      obtain ⟨fetched, fetch, executes⟩ := instruct_eq_ok_iff.mp runs
      simp only [if_neg shows, Option.getD_none]
      calc m.cycle.1.state.screen = after.screen := by rw [state]; rfl
        _ = fetched.screen := by
          rw [(State.leaves_of_execute executes).screen, State.screenAfter_of_quiet shows]
        _ = m.state.screen := by rw [(State.fetch_eq_ok fetch).2]

theorem frames_display (i : Instruction) (after : State) :
    (m.display i after).frames =
      m.frames ++ if i.refreshesDisplay then [after.screen] else [] := by
  unfold display
  split <;> simp

theorem shown?_of_ended (ended : m.cycle.2 ≠ .ok .running) : m.shown? = none := by
  have idle : m.committed? = none := if_neg fun goesOn => ended (goesOn_iff.mp goesOn)
  simp only [shown?, idle]

theorem frames_cycle (timed : m.Timed) : m.cycle.1.frames = m.frames ++ m.shown?.toList := by
  cases m.ending m.clock.advance with
  | quit _ ends =>
    rw [shown?_of_ended (by rw [cycle, ends]; simp), cycle, ends, poll_snd]
    simp [report]
  | fault f _ ends =>
    rw [shown?_of_ended (by rw [cycle, ends]; simp), cycle, ends, poll_snd]
    simp
  | reached i after _ runs ends =>
    cases answer : m.clock.advance with
    | mk clock ticks =>
    rw [← cycle, answer] at ends
    cases ticks with
    -- The frame has been handed out by then, and the state it shows is not committed.
    | error e => exact absurd (by rw [ends]; rfl) (timed e)
    | ok ticks =>
      obtain ⟨fetched, fetch, -⟩ := instruct_eq_ok_iff.mp runs
      have commits : m.committed? = some i := by
        rw [committed?, if_pos (goesOn_iff.mpr (by rw [ends]; rfl)), fetch]
        rfl
      have screen : m.cycle.1.state.screen = after.screen := by rw [ends]; rfl
      have frames : m.cycle.1.frames = ((m.poll.2.report i.notices).display i after).frames := by
        rw [ends]
        rfl
      rw [frames, frames_display, shown?, commits, screen, poll_snd]
      simp only [refreshesDisplay_iff, report]
      by_cases shows : i.operation = .draw ∨ i.operation = .clearScreen
      · simp [shows]
      · simp [shows]

end

/-- What the display shows after the last of its frames, or before the first, is the
screen; and the frames are the screens that were shown, oldest first. -/
structure Current (start : Screen) (past : List Machine) (m : Machine) : Prop where
  screen : m.frames.back?.getD start = m.state.screen
  frames : m.frames.toList = past.filterMap shown?

theorem current_created {state : State} {delay rate : Number} {script : List Sample}
    {m : Machine} (created : create state delay rate script = .ok m) :
    Current state.screen [] m := by
  obtain ⟨clock, -, done⟩ := Fallible.bind_eq_ok_iff.mp created
  cases done
  exact ⟨rfl, rfl⟩

theorem Current.cycle {start : Screen} {past : List Machine} {m : Machine}
    (current : Current start past m) (timed : m.Timed) :
    Current start (past ++ [m]) m.cycle.1 := by
  constructor
  · rw [frames_cycle timed, screen_cycle]
    cases m.shown? with
    | none => simpa using current.screen
    | some screen => simp
  · rw [frames_cycle timed, List.filterMap_append, ← current.frames]
    cases shows : m.shown? with
    | none => simp [shows]
    | some screen => simp [shows]

/-- Whatever commands a new machine is given and however each of them ends, as long as
the clock tells its ticks. -/
theorem display_current {state : State} {delay rate : Number} {script : List Sample}
    {m : Machine} (created : create state delay rate script = .ok m) (commands : List Command)
    (timed : ∀ k ∈ m.history commands, k.Timed) :
    (m.performAll commands).frames.back?.getD state.screen =
      (m.performAll commands).state.screen ∧
    (m.performAll commands).frames.toList = (m.history commands).filterMap shown? := by
  have current : Current state.screen (m.history commands) (m.performAll commands) := by
    refine kept_performAll
      (fun past k => (∀ j ∈ past, j.Timed) → Current state.screen past k)
      ?cycle ?report ?start commands timed
    case cycle =>
      intro past k ih timed
      have before : Current state.screen past k :=
        ih fun j member => timed j (List.mem_append_left _ member)
      exact before.cycle (timed k (by simp))
    case report =>
      intro past k notices ih timed
      exact ⟨(ih timed).screen, (ih timed).frames⟩
    case start =>
      intro _
      exact current_created created
  exact ⟨current.screen, current.frames⟩

/-- Clears the screen, draws a zero and returns to nowhere. -/
def sketch : State :=
  { State.initial ⟨0, 0⟩ .classic with
    memory := (State.initial ⟨0, 0⟩ .classic).memory.write Memory.programStart
      [0x00, 0xE0, 0xD0, 0x05, 0x00, 0xEE] }

/-- A run, a cycle that ends in an error and a run that is told to quit. -/
def sketching : Machine := started sketch [.idle, .idle, .idle, ⟨none, true⟩]

theorem display_current_sketching :
    (∀ k ∈ sketching.history [.run (some 2), .cycle, .run (some 5)], k.Timed) ∧
    (sketching.performAll [.run (some 2), .cycle, .run (some 5)]).frames.size = 2 ∧
    (sketching.performAll [.run (some 2), .cycle, .run (some 5)]).frames.back?.getD
        sketch.screen =
      (sketching.performAll [.run (some 2), .cycle, .run (some 5)]).state.screen ∧
    (sketching.performAll [.run (some 2), .cycle, .run (some 5)]).frames.toList =
      (sketching.history [.run (some 2), .cycle, .run (some 5)]).filterMap shown? := by
  have created : create sketch Clock.defaultDelay Clock.defaultRate _ = .ok sketching :=
    create_started sketch _
  have timed : ∀ k ∈ sketching.history [.run (some 2), .cycle, .run (some 5)], k.Timed := by
    decide +kernel
  exact ⟨timed, by decide +kernel, display_current created _ timed⟩

end Chip8.Machine
