import Chip8.Proofs.SharedLoggers
import Mathlib.Data.List.Forall2

/-! What the shared loggers print of notices. Each notice goes to the logger of its source,
made when it is first heard of. Where no line goes to a terminal, what is printed are the
plain lines of the notices that the level in force lets through, each behind the time. -/

set_option autoImplicit false

namespace Chip8.Log.Console

/-- A notice goes to the shared logger of its source. -/
def say (c : Console) (n : Notice) : Option String × Console :=
  let (index, c) := c.get n.source
  c.log index n.level.name n.text

/-- The lines printed of some notices, oldest first. -/
def sayAll (c : Console) : List Notice → List String
  | [] => []
  | n :: rest => (c.say n).1.toList ++ (c.say n).2.sayAll rest

/-- The line is a plain one behind a time. -/
def Stamped (printed plain : String) : Prop :=
  ∃ (logger : Logger) (now : Float), printed = logger.stamp now ++ plain

/-- No line goes to a terminal, and every shared logger is one without colours and with times. -/
structure Piped (c : Console) : Prop where
  terminal : c.terminal = false
  shared : c.AllShared fun _ logger => logger.colored = false ∧ logger.timestamped = true

section
variable {c : Console} {level : Level}

theorem piped_fresh (times : List Float) : (fresh false times).Piped := ⟨rfl, nofun⟩

theorem Piped.get (piped : c.Piped) (name : String) : (c.get name).2.Piped where
  terminal := (c.get_keeps name).2.trans piped.terminal
  shared := piped.shared.get name fun _ => ⟨piped.terminal, rfl⟩

theorem Piped.log (piped : c.Piped) (index : Nat) (level text : String) :
    (c.log index level text).2.Piped := by
  obtain ⟨times, logged⟩ := c.log_snd index level text
  rw [logged]
  exact ⟨piped.terminal, piped.shared⟩

theorem Piped.serve (piped : c.Piped) (request : Request) : (c.serve request).Piped := by
  cases request with
  | get name => exact piped.get name
  | setLogLevel text =>
    change (c.changeLevel text).1.Piped
    cases named : Level.ofName? (Text.upper text) with
    | none =>
      rw [changeLevel_of_unknown named]
      exact piped
    | some level =>
      have known := Level.ofName?_eq_some_iff.mp named
      refine ⟨?_, piped.shared.changeLevel known fun _ _ holds => holds⟩
      rw [changeLevel_of_known known, assignAll_eq]
      exact piped.terminal
  | log index level text => exact piped.log index level text

theorem Piped.after (piped : c.Piped) (requests : List Request) : (c.after requests).Piped := by
  induction requests generalizing c with
  | nil => exact piped
  | cons request rest ih => exact ih (piped.serve request)

/-- A shared logger prints a notice exactly if its level is let through, and then as its
plain line behind the time. -/
theorem say_fst (inStep : c.InStep level) (piped : c.Piped) (n : Notice) :
    if n.shown level then ∃ line, (c.say n).1 = some line ∧ Stamped line n.line
    else (c.say n).1 = none := by
  have member := c.mem_shared_get n.source
  obtain ⟨logger, found, named, leveled⟩ := (inStep.get n.source).shared _ _ member
  obtain ⟨same, found', plain, timed⟩ := (piped.get n.source).shared _ _ member
  obtain rfl : logger = same := Option.some.inj (found.symm.trans found')
  have shows : logger.shows n.level.name = n.shown level := by
    rw [Logger.shows, Notice.shown, leveled, Level.upper_name, Level.rankOf_name,
      Level.rankOf_name]
  have line (now : Float) : logger.line now n.level.name n.text = logger.stamp now ++ n.line := by
    simp only [Logger.line, Logger.label, Notice.line, plainLine, plain, timed, named, if_true,
      Bool.false_eq_true, if_false, String.append_assoc]
    rfl
  simp only [say, log, found, shows, timed, if_true]
  by_cases shown : n.shown level = true
  · simp only [shown, if_true]
    exact ⟨_, rfl, logger, _, line _⟩
  · simp only [shown, if_false, Bool.false_eq_true]

theorem InStep.say (inStep : c.InStep level) (n : Notice) : (c.say n).2.InStep level :=
  (inStep.get n.source).serve (.log _ n.level.name n.text)

theorem Piped.say (piped : c.Piped) (n : Notice) : (c.say n).2.Piped :=
  (piped.get n.source).log _ _ _

/-- The lines of all notices, in their order. -/
theorem sayAll_stamped (inStep : c.InStep level) (piped : c.Piped) (notices : List Notice) :
    List.Forall₂ Stamped (c.sayAll notices) (Notice.lines level notices) := by
  induction notices generalizing c with
  | nil => exact .nil
  | cons n rest ih =>
    have later := ih (inStep.say n) (piped.say n)
    have first := say_fst inStep piped n
    rw [sayAll, Notice.lines, List.filter_cons]
    by_cases shown : n.shown level = true
    · rw [if_pos shown] at first ⊢
      obtain ⟨line, printed, stamped⟩ := first
      rw [printed]
      exact .cons stamped later
    · rw [if_neg shown] at first ⊢
      rw [first]
      exact later

end

end Chip8.Log.Console
