import Chip8.Proofs.WellFormed

/-! Calls and returns as brackets. While the stack stays deeper than it was before a
call, the addresses up to the call's own are out of reach; the cycle that brings the
depth back is the call's return. -/

set_option autoImplicit false

namespace Chip8

namespace CallStack

/-- The oldest addresses of a canonical stack. -/
structure StandsOn (s : CallStack) (addresses : List UInt16) : Prop where
  canonical : s.Canonical
  lowest : addresses <+: s.toList

variable {s t : CallStack} {addresses : List UInt16}

theorem StandsOn.push {address : Nat} (stands : s.StandsOn addresses)
    (h : s.push address = .ok t) : t.StandsOn addresses := by
  refine ⟨canonical_push stands.canonical h, ?_⟩
  rw [toList_push h]
  exact stands.lowest.trans (List.prefix_append _ _)

theorem StandsOn.pop {address : UInt16} (stands : s.StandsOn addresses)
    (h : s.pop = .ok (address, t)) (room : addresses.length ≤ t.depth) :
    t.StandsOn addresses := by
  refine ⟨canonical_pop stands.canonical h, ?_⟩
  have lowest := stands.lowest
  rw [toList_pop h] at lowest
  have shorter : addresses.length ≤ t.toList.length := by
    rw [length_toList]
    exact room
  exact List.prefix_of_prefix_length_le lowest (List.prefix_append _ _) shorter

/-- Popping the address that a stack was pushed on gives that stack back. -/
theorem StandsOn.uncover {outer : CallStack} {address popped : UInt16}
    (stands : s.StandsOn (outer.toList ++ [address])) (canonical : outer.Canonical)
    (h : s.pop = .ok (popped, t)) (depth : t.depth = outer.depth) :
    popped = address ∧ t = outer := by
  have whole : outer.toList ++ [address] = s.toList := by
    apply stands.lowest.eq_of_length
    have before := depth_pop h
    simp only [List.length_append, length_toList, List.length_singleton]
    omega
  rw [toList_pop h] at whole
  obtain ⟨lists, last⟩ := List.append_inj' whole rfl
  have same : popped = address := (List.singleton_inj.mp last).symm
  exact ⟨same, eq_of_toList_eq (canonical_pop stands.canonical h) canonical lists.symm⟩

end CallStack

namespace State
variable {s t : State} {i : Instruction} {key : Option Key} {addresses : List UInt16}

theorem stack_fetch (h : s.fetch = .ok (i, t)) : t.stack = s.stack := by
  rw [(fetch_eq_ok h).2]

/-- One instruction that ends no lower than the given addresses does not touch them. -/
theorem standsOn_instruct (stands : s.stack.StandsOn addresses)
    (runs : Machine.instruct s key = .ok (i, t)) (room : addresses.length ≤ t.stack.depth) :
    t.stack.StandsOn addresses := by
  obtain ⟨fetched, fetch, executes⟩ := Machine.instruct_eq_ok_iff.mp runs
  rw [← stack_fetch fetch] at stands
  cases control_of_execute executes with
  | called _ pushed _ => exact stands.push pushed
  | returned _ popped => exact stands.pop popped room
  | jumped _ stack _ => exact stack ▸ stands
  | rewound _ stack _ => exact stack ▸ stands
  | passed _ stack _ => exact stack ▸ stands

/-- What a call leaves on the stack. -/
theorem standsOn_call (canonical : s.stack.Canonical)
    (runs : Machine.instruct s key = .ok (i, t)) (operation : i.operation = .call) :
    t.stack.StandsOn (s.stack.toList ++ [s.pc + 2]) := by
  obtain ⟨fetched, fetch, executes⟩ := Machine.instruct_eq_ok_iff.mp runs
  obtain ⟨-, rfl⟩ := fetch_eq_ok fetch
  simp only [execute, operation] at executes
  obtain ⟨stack, pushed, done⟩ := Fallible.bind_eq_ok_iff.mp executes
  cases done
  refine ⟨CallStack.canonical_push canonical pushed, ?_⟩
  have whole := CallStack.toList_push pushed
  rw [UInt16.ofNat_toNat] at whole
  exact ⟨[], (List.append_nil _).trans whole.symm⟩

/-- Only a return makes the stack shallower. -/
theorem returned_of_depth_lt (runs : Machine.instruct s key = .ok (i, t))
    (shallower : t.stack.depth < s.stack.depth) :
    i.operation = .returnToCaller ∧ s.stack.pop = .ok (t.pc, t.stack) := by
  obtain ⟨fetched, fetch, executes⟩ := Machine.instruct_eq_ok_iff.mp runs
  rw [← stack_fetch fetch] at shallower ⊢
  cases control_of_execute executes with
  | called _ pushed _ =>
    have deeper := CallStack.depth_push pushed
    omega
  | returned operation popped => exact ⟨operation, popped⟩
  | jumped _ stack _ => exact absurd shallower (stack ▸ Nat.lt_irrefl _)
  | rewound _ stack _ => exact absurd shallower (stack ▸ Nat.lt_irrefl _)
  | passed _ stack _ => exact absurd shallower (stack ▸ Nat.lt_irrefl _)

end State

namespace Machine
variable {m n : Machine} {reading last : Reading} {addresses : List UInt16}

theorem standsOn_cycleWith (stands : m.state.stack.StandsOn addresses)
    (room : addresses.length ≤ (m.cycleWith reading).1.state.stack.depth) :
    (m.cycleWith reading).1.state.stack.StandsOn addresses := by
  obtain ⟨-, same⟩ | ⟨-, i, after, ticks, runs, same⟩ := m.cycleWith_cases reading
  · rw [same]
    exact stands
  · rw [same, State.stack_elapse] at room ⊢
    exact State.standsOn_instruct stands runs room

theorem standsOn_called (canonical : m.state.stack.Canonical) (calls : m.Executes reading .call) :
    (m.cycleWith reading).1.state.stack.StandsOn (m.state.stack.toList ++ [m.state.pc + 2]) := by
  obtain ⟨running, i, fetched, fetch, operation⟩ := calls
  obtain ⟨ended, -⟩ | ⟨-, j, after, ticks, runs, same⟩ := m.cycleWith_cases reading
  · exact absurd running ended
  · obtain ⟨_, again, _⟩ := instruct_eq_ok_iff.mp runs
    rw [fetch] at again
    cases again
    rw [same, State.stack_elapse]
    exact State.standsOn_call canonical runs operation

/-- The subroutine is arbitrary: it may call, return, wait and rewrite itself, as long
as the stack does not get as shallow as before the call. -/
theorem call_returns (canonical : m.state.stack.Canonical) (calls : m.Executes reading .call)
    (inner : Path (fun k => m.state.stack.depth < k.state.stack.depth)
      (m.cycleWith reading).1 n)
    (back : (n.cycleWith last).1.state.stack.depth = m.state.stack.depth) :
    n.Executes last .returnToCaller ∧
      (n.cycleWith last).1.state.pc.toNat = m.state.pc.toNat + 2 ∧
      (n.cycleWith last).1.state.stack = m.state.stack := by
  -- The call's own address stays under everything that the subroutine pushes.
  have stands : n.state.stack.StandsOn (m.state.stack.toList ++ [m.state.pc + 2]) := by
    apply inner.preserves (fun k => k.state.stack.StandsOn _) (standsOn_called canonical calls)
    intro k reading _ deeper stands
    apply standsOn_cycleWith stands
    rw [List.length_append, CallStack.length_toList]
    exact deeper
  have deeper : m.state.stack.depth < n.state.stack.depth := inner.last
  obtain ⟨-, same⟩ | ⟨running, i, after, ticks, runs, same⟩ := n.cycleWith_cases last
  · rw [same] at back
    omega
  · have back : after.stack.depth = m.state.stack.depth := by
      rw [same, State.stack_elapse] at back
      exact back
    obtain ⟨operation, popped⟩ := State.returned_of_depth_lt runs (by omega)
    obtain ⟨pc, stack⟩ := stands.uncover canonical popped back
    obtain ⟨fetched, fetch, _⟩ := instruct_eq_ok_iff.mp runs
    obtain ⟨_, _, calling, _⟩ := calls.2
    have counted : (m.state.pc + 2).toNat = m.state.pc.toNat + 2 := by
      rw [← State.pc_fetch calling, (State.fetch_eq_ok calling).2]
    refine ⟨⟨running, i, fetched, fetch, operation⟩, ?_, ?_⟩
    · rw [same, State.pc_elapse, pc, counted]
    · rw [same, State.stack_elapse, stack]

/-- Calls the instruction after the call, which returns. -/
def calling : Machine :=
  fresh { State.initial ⟨0, 0⟩ .classic with
    memory := Memory.zero.write Memory.programStart [0x22, 0x02, 0x00, 0xEE] }

/-- The machine inside that subroutine. -/
def called : Machine := (calling.cycleWith (calling.clock, .ok 1)).1

theorem call_returns_calling :
    called.Executes (called.clock, .ok 1) .returnToCaller ∧
      (called.cycleWith (called.clock, .ok 1)).1.state.pc.toNat = calling.state.pc.toNat + 2 ∧
      (called.cycleWith (called.clock, .ok 1)).1.state.stack = calling.state.stack := by
  have calls : calling.Executes (calling.clock, .ok 1) .call :=
    executes_of_sound rfl rfl (by decide +kernel) (by decide +kernel)
  have deeper : calling.state.stack.depth < called.state.stack.depth := by decide +kernel
  have back : (called.cycleWith (called.clock, .ok 1)).1.state.stack.depth =
      calling.state.stack.depth := by decide +kernel
  have inner : Path (fun k => calling.state.stack.depth < k.state.stack.depth)
      (calling.cycleWith (calling.clock, .ok 1)).1 called := by
    unfold called at deeper ⊢
    exact .stay deeper
  exact call_returns CallStack.canonical_empty calls inner back

end Machine

end Chip8
