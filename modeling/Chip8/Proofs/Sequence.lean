import Chip8.Proofs.Faults

/-! Instructions one after another. They are given as a list and not fetched, so the program
counter has no say in which of them comes next. -/

set_option autoImplicit false

namespace Chip8.State

def executeAll (s : State) (key : Option Key) : List Instruction → Except Fault State
  | [] => .ok s
  | i :: rest => do
      let t ← s.execute i key
      t.executeAll key rest

/-- A property of the instructions so far and the state after them: if it takes each
instruction to a next state, with the property again, then all of them get through. -/
theorem executeAll_kept {s : State} {key : Option Key} {whole : List Instruction}
    (kept : List Instruction → State → Prop) (start : kept [] s)
    (step : ∀ past i rest t, past ++ i :: rest = whole → kept past t →
      ∃ u, t.execute i key = .ok u ∧ kept (past ++ [i]) u) :
    ∃ t, s.executeAll key whole = .ok t ∧ kept whole t := by
  suffices onward : ∀ rest past t, past ++ rest = whole → kept past t →
      ∃ u, t.executeAll key rest = .ok u ∧ kept whole u from onward whole [] s rfl start
  intro rest
  induction rest with
  | nil =>
    intro past t split before
    rw [List.append_nil] at split
    exact ⟨t, rfl, split ▸ before⟩
  | cons i rest ih =>
    intro past t split before
    obtain ⟨u, runs, after⟩ := step past i rest t split before
    obtain ⟨last, ran, reached⟩ := ih (past ++ [i]) u
      ((List.append_assoc past [i] rest).trans split) after
    exact ⟨last, by rw [executeAll, runs]; exact ran, reached⟩

end Chip8.State
