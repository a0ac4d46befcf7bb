import Chip8.CommandLine.Session
import Chip8.Proofs.Fallible

/-! What accepted arguments leave in the settings. They are read one after another, so
what every option keeps is true of the settings of every accepted command line. -/

set_option autoImplicit false

namespace Chip8.CommandLine

open Fallible

namespace Reading
variable {kept : Settings → Prop} {rom : String} {settings : Settings}

theorem settings_of_finish {r : Reading} (accepted : r.finish = .ok (.run rom settings)) :
    r.settings = settings := by
  unfold finish at accepted
  split at accepted
  case h_1 => cases accepted
  case h_2 named =>
    split at accepted
    · cases accepted
    · split at accepted
      · cases accepted
      · cases accepted
        rfl

theorem shortHelp_ne_run (attached : String) : shortHelp attached ≠ .ok (.run rom settings) := by
  unfold shortHelp
  split <;> simp

/-- Only options with a value and options without one touch the settings. -/
theorem kept_of_read
    (assign : ∀ {s t option text}, kept s → s.assign option text = .ok t → kept t)
    (raise : ∀ {s} option, kept s → kept (s.raise option))
    {r : Reading} {arguments : List Argument} (before : kept r.settings)
    (accepted : r.read arguments = .ok (.run rom settings)) : kept settings := by
  fun_induction read r arguments
  case case1 r =>
    rw [← settings_of_finish accepted]
    exact before
  -- A value or an argument that fits nowhere, with or without a separator.
  case case2 ih | case3 ih | case4 ih | case5 ih | case6 ih | case7 ih | case8 ih | case9 ih =>
    exact ih before accepted
  case case10 attached rest => exact absurd accepted (shortHelp_ne_run attached)
  case case12 assigned ih | case15 assigned ih => exact ih (assign before assigned) accepted
  case case17 option _ _ _ ih => exact ih (raise option before) accepted
  case case11 | case13 | case14 | case16 => cases accepted

end Reading

theorem Request.kept_of_parse {kept : Settings → Prop} {rom : String} {settings : Settings}
    (assign : ∀ {s t option text}, kept s → s.assign option text = .ok t → kept t)
    (raise : ∀ {s} option, kept s → kept (s.raise option)) (default : kept .default)
    {arguments : List String} (accepted : Request.parse arguments = .ok (.run rom settings)) :
    kept settings := by
  unfold Request.parse at accepted
  split at accepted
  case h_1 => cases accepted
  case h_2 classified _ => exact Reading.kept_of_read assign raise default accepted

namespace Settings

/-- A clock can be made from the settings. -/
structure Drivable (s : Settings) : Prop where
  delay : s.delay.atMostZero = false
  rate : s.rate.atMostZero = false
  hertz : ∃ hz, s.rate.toFloat = .ok hz

theorem drivable_default : default.Drivable := ⟨rfl, rfl, _, rfl⟩

/-- Numbers from the command line are doubles, so that none is too large for one. -/
theorem positive_eq_ok {option : OptionName} {text : String} {n : Number}
    (accepted : positive option text = .ok n) :
    n.atMostZero = false ∧ ∃ x, n.toFloat = .ok x := by
  unfold positive at accepted
  split at accepted
  case h_1 => cases accepted
  case h_2 value _ =>
    split at accepted
    case isTrue => cases accepted
    case isFalse above =>
      cases accepted
      exact ⟨decide_eq_false above, value, rfl⟩

theorem Drivable.assign {s t : Settings} {option : OptionName} {text : String}
    (drivable : s.Drivable) (assigned : s.assign option text = .ok t) : t.Drivable := by
  cases option with
  | cycleDelay =>
    obtain ⟨delay, read, done⟩ := bind_eq_ok_iff.mp assigned
    cases done
    exact ⟨(positive_eq_ok read).1, drivable.rate, drivable.hertz⟩
  | timerHz =>
    obtain ⟨rate, read, done⟩ := bind_eq_ok_iff.mp assigned
    cases done
    exact ⟨drivable.delay, (positive_eq_ok read).1, (positive_eq_ok read).2⟩
  | scale | colorScheme | seed | cycles | logLevel =>
    obtain ⟨_, -, done⟩ := bind_eq_ok_iff.mp assigned
    cases done
    exact ⟨drivable.delay, drivable.rate, drivable.hertz⟩
  | help | modern | headless => cases assigned

theorem Drivable.raise {s : Settings} (option : OptionName) (drivable : s.Drivable) :
    (s.raise option).Drivable := by
  cases option <;> exact ⟨drivable.delay, drivable.rate, drivable.hertz⟩

theorem drivable_of_parse {arguments : List String} {rom : String} {settings : Settings}
    (accepted : Request.parse arguments = .ok (.run rom settings)) : settings.Drivable :=
  Request.kept_of_parse .assign .raise drivable_default accepted

theorem Drivable.create {s : Settings} (drivable : s.Drivable) (state : State)
    (script : List Sample) :
    ∃ start, Machine.create state s.delay s.rate script = .ok start := by
  obtain ⟨hz, rate⟩ := drivable.hertz
  have clock : Clock.create s.delay s.rate = .ok ⟨s.delay, 1.0 / hz, 0.0⟩ := by
    simp only [Clock.create, ClockSetting.atMostZero, ClockSetting.toTime, drivable.delay,
      drivable.rate, rate, Bool.false_eq_true, if_false]
    rfl
  exact ⟨_, bind_eq_ok_iff.mpr ⟨_, clock, rfl⟩⟩

end Settings

end Chip8.CommandLine
