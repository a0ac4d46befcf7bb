import Chip8.Clock
import Chip8.Execute

/-! The machine in time: one instruction per cycle, at most one key from the
input script, the screen handed out after the instructions that refresh it, and
the timers driven by a clock of their own. A cycle that fails keeps the state
and the count of cycles it found. Random bytes may come from any generator. -/

set_option autoImplicit false

namespace Chip8

/-- What one poll of the input finds. -/
structure Sample where
  key : Option Key
  quit : Bool
  deriving DecidableEq, Repr

def Sample.idle : Sample := ⟨none, false⟩

inductive Outcome where
  | running
  | terminated
  deriving DecidableEq, Repr

structure Machine where
  state : State
  clock : Clock Number Float
  /-- The samples still to come; after the last one every poll is idle. -/
  script : List Sample
  cycles : Nat
  polls : Nat
  sleeps : Nat
  /-- The screens handed to the display, oldest first. -/
  frames : Array Screen
  /-- What was reported, oldest first. -/
  notices : Array Log.Notice

namespace Machine

inductive Error where
  | fault (fault : Fault)
  | arithmetic (error : ArithmeticError)
  deriving DecidableEq, Repr

def create (state : State) (delay rate : Number) (script : List Sample) :
    Except (ClockError Number) Machine := do
  let clock ← Clock.create delay rate
  return ⟨state, clock, script, 0, 0, 0, #[], #[]⟩

def report (m : Machine) (notices : List Log.Notice) : Machine :=
  { m with notices := m.notices ++ notices }

def poll (m : Machine) : Sample × Machine :=
  match m.script with
  | [] => (.idle, { m with polls := m.polls + 1 })
  | sample :: rest => (sample, { m with script := rest, polls := m.polls + 1 })

def quitNotice : Log.Notice := ⟨.info, "chip8vm.machine", "Quit requested"⟩

def stopNotice (m : Machine) : Log.Notice :=
  ⟨.debug, "chip8vm.machine", "Stopped after " ++ toString m.cycles ++ " cycles at pc=0x" ++
    Text.hex 3 m.state.pc.toNat⟩

/-- Hands out the screen of `after` when the instruction refreshes the display. -/
def display (m : Machine) (i : Instruction) (after : State) : Machine :=
  if i.refreshesDisplay then { m with frames := m.frames.push after.screen } else m

/-- What the clock answers when a cycle advances it: the clock afterwards, and the
ticks that passed. -/
abbrev Reading := Clock Number Float × Except ArithmeticError Int

/-- Commits the state that the cycle's instruction led to, if the clock could
tell the ticks. -/
def commit (m : Machine) (after : State) : Reading → Machine × Except Error Outcome
  | (clock, .error e) => ({ m with clock }, .error (.arithmetic e))
  | (clock, .ok ticks) =>
      ({ m with
          clock
          state := after.elapse ticks
          cycles := m.cycles + 1
          sleeps := m.sleeps + 1 }, .ok .running)

/-- Fetches and runs one instruction with the sampled key. -/
def instruct [Random.Generator] (s : State) (key : Option Key) :
    Except Fault (Instruction × State) := do
  let (i, fetched) ← s.fetch
  let after ← fetched.execute i key
  return (i, after)

/-- One cycle, whatever the clock answers. -/
def cycleWith [Random.Generator] (m : Machine) (reading : Reading) :
    Machine × Except Error Outcome :=
  let (sample, polled) := m.poll
  if sample.quit then (polled.report [quitNotice], .ok .terminated)
  else
    match instruct polled.state sample.key with
    | .error fault => (polled, .error (.fault fault))
    | .ok (i, after) => ((polled.report i.notices).display i after).commit after reading

def cycle [Random.Generator] (m : Machine) : Machine × Except Error Outcome :=
  m.cycleWith m.clock.advance

/-- At most `limit` cycles, ended early by a quit or an error. -/
def cyclesUpTo [Random.Generator] : Nat → Machine → Machine × Except Error Outcome
  | 0, m => (m, .ok .running)
  | limit + 1, m =>
      match m.cycle with
      | (next, .ok .running) => cyclesUpTo limit next
      | ended => ended

/-- The cycles of a run without a limit. It is not endless: after so many it ends as a run with
a limit does. -/
def unlimited : Nat := 0x4000000000000000

/-- A negative limit allows no cycle. The count of cycles is reported unless an
error ends the run. -/
def run [Random.Generator] (m : Machine) (limit : Option Int) :
    Machine × Except Error Outcome :=
  match cyclesUpTo ((limit.map Int.toNat).getD unlimited) m with
  | (ended, .ok outcome) => (ended.report [ended.stopNotice], .ok outcome)
  | (ended, .error e) => (ended, .error e)

end Machine

end Chip8
