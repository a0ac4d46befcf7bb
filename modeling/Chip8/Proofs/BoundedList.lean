import Chip8.Proofs.CallStack

/-! The call stack as a list. A list of at most sixteen addresses answers every request
as the sixteen slots do, with the same refusals, and the slots hold that list and zeros
behind it. -/

set_option autoImplicit false

namespace Chip8.CallStack

inductive Request where
  | push (address : Nat)
  | pop
  deriving DecidableEq, Repr

/-- A push has nothing to tell, a pop tells an address, and either may be refused. -/
abbrev Reply := Except Fault (Option Nat)

/-- A refusal leaves the stack as it was. -/
def serve (s : CallStack) : Request → CallStack × Reply
  | .push address =>
      match s.push address with
      | .error f => (s, .error f)
      | .ok t => (t, .ok none)
  | .pop =>
      match s.pop with
      | .error f => (s, .error f)
      | .ok (address, t) => (t, .ok (some address.toNat))

/-- The same requests made of a list whose last address is the newest. That it is full
is found before the address is looked at. -/
def serveList (l : List Nat) : Request → List Nat × Reply
  | .push address =>
      if l.length = capacity then (l, .error .stackFull)
      else if Memory.size ≤ address then (l, .error (.returnOutsideMemory address))
      else (l ++ [address], .ok none)
  | .pop =>
      match l.getLast? with
      | none => (l, .error .stackEmpty)
      | some newest => (l.dropLast, .ok (some newest))

/-- What is left after some requests, and the reply to each of them. -/
def serveAll {σ : Type} (serve : σ → Request → σ × Reply) (s : σ) :
    List Request → σ × List Reply
  | [] => (s, [])
  | request :: rest =>
      let next := serve s request
      let last := serveAll serve next.1 rest
      (last.1, next.2 :: last.2)

/-- The slots in use hold the list, and the others are zero. -/
structure Lists (s : CallStack) (l : List Nat) : Prop where
  addresses : s.toList.map UInt16.toNat = l
  canonical : s.Canonical

section
variable {s t : CallStack} {l : List Nat} {address : Nat}

theorem Lists.depth (lists : s.Lists l) : s.depth = l.length := by
  rw [← lists.addresses, List.length_map, length_toList]

theorem Lists.length_le (lists : s.Lists l) : l.length ≤ capacity :=
  lists.depth ▸ s.depth_le

theorem Lists.slot (lists : s.Lists l) {k : Nat} (bound : k < 16) :
    s.slots[k].toNat = l.getD k 0 := by
  by_cases used : k < s.depth
  · rw [← lists.addresses, List.getD_eq_getElem?_getD, List.getElem?_map,
      getElem?_toList used bound]
    rfl
  · have beyond : l.length ≤ k := lists.depth ▸ Nat.le_of_not_lt used
    rw [lists.canonical k bound (Nat.le_of_not_lt used), List.getD_eq_getElem?_getD,
      List.getElem?_eq_none beyond]
    rfl

theorem lists_empty : empty.Lists [] := ⟨rfl, canonical_empty⟩

theorem toNat_of_inside (inside : address < Memory.size) :
    (UInt16.ofNat address).toNat = address := by
  have inside : address < 4096 := inside
  rw [UInt16.toNat_ofNat']
  omega

theorem Lists.push (lists : s.Lists l) (inside : address < Memory.size)
    (pushed : s.push address = .ok t) : t.Lists (l ++ [address]) := by
  refine ⟨?_, canonical_push lists.canonical pushed⟩
  rw [toList_push pushed, List.map_append, lists.addresses, List.map_singleton,
    toNat_of_inside inside]

theorem Lists.pop {newest : UInt16} (lists : s.Lists l) (popped : s.pop = .ok (newest, t)) :
    l = l.dropLast ++ [newest.toNat] ∧ t.Lists l.dropLast := by
  have whole : l = t.toList.map UInt16.toNat ++ [newest.toNat] := by
    rw [← lists.addresses, toList_pop popped, List.map_append, List.map_singleton]
  have below : l.dropLast = t.toList.map UInt16.toNat := by
    rw [whole, List.dropLast_concat]
  exact ⟨by rw [below]; exact whole, below.symm, canonical_pop lists.canonical popped⟩

theorem serve_push (lists : s.Lists l) (address : Nat) :
    (s.serve (.push address)).2 = (serveList l (.push address)).2 ∧
      (s.serve (.push address)).1.Lists (serveList l (.push address)).1 := by
  have depth := lists.depth
  cases pushed : s.push address with
  | error f =>
    simp only [serve, serveList, pushed]
    obtain ⟨full, rfl⟩ | ⟨room, outside, rfl⟩ := push_eq_error_iff.mp pushed
    · rw [if_pos (depth ▸ full)]
      exact ⟨rfl, lists⟩
    · rw [if_neg (depth ▸ Nat.ne_of_lt room), if_pos outside]
      exact ⟨rfl, lists⟩
  | ok t =>
    simp only [serve, serveList, pushed]
    obtain ⟨room, inside, -⟩ := push_eq_ok pushed
    rw [if_neg (depth ▸ Nat.ne_of_lt room), if_neg (Nat.not_le_of_lt inside)]
    exact ⟨rfl, lists.push inside pushed⟩

theorem serve_pop (lists : s.Lists l) :
    (s.serve .pop).2 = (serveList l .pop).2 ∧
      (s.serve .pop).1.Lists (serveList l .pop).1 := by
  cases popped : s.pop with
  | error f =>
    obtain ⟨none, rfl⟩ := pop_eq_error_iff.mp popped
    have nothing : l = [] := List.length_eq_zero_iff.mp (lists.depth ▸ none)
    subst nothing
    have refused : s.serve .pop = (s, .error .stackEmpty) := by simp only [serve, popped]
    rw [refused]
    exact ⟨rfl, lists⟩
  | ok reached =>
    obtain ⟨newest, t⟩ := reached
    obtain ⟨whole, rest⟩ := lists.pop popped
    have last : l.getLast? = some newest.toNat := by
      rw [whole]
      exact List.getLast?_concat
    have served : s.serve .pop = (t, .ok (some newest.toNat)) := by simp only [serve, popped]
    have taken : serveList l .pop = (l.dropLast, .ok (some newest.toNat)) := by
      simp only [serveList, last]
    rw [served, taken]
    exact ⟨rfl, rest⟩

theorem serve_request (lists : s.Lists l) (request : Request) :
    (s.serve request).2 = (serveList l request).2 ∧
      (s.serve request).1.Lists (serveList l request).1 := by
  cases request with
  | push address => exact serve_push lists address
  | pop => exact serve_pop lists

/-- The replies stay the same and the slots go on holding the list. -/
theorem serveAll_of_lists (lists : s.Lists l) (requests : List Request) :
    (serveAll serve s requests).2 = (serveAll serveList l requests).2 ∧
      (serveAll serve s requests).1.Lists (serveAll serveList l requests).1 := by
  induction requests generalizing s l with
  | nil => exact ⟨rfl, lists⟩
  | cons request rest ih =>
    obtain ⟨reply, next⟩ := serve_request lists request
    obtain ⟨replies, last⟩ := ih next
    simp only [serveAll]
    rw [reply, replies]
    exact ⟨rfl, last⟩

/-- A pop undoes a push, down to the slot that it used. -/
theorem pop_push (canonical : s.Canonical) (pushed : s.push address = .ok t) :
    t.pop = .ok (UInt16.ofNat address, s) := by
  cases popped : t.pop with
  | error f =>
    have grown := depth_push pushed
    have nothing := (pop_eq_error_iff.mp popped).1
    omega
  | ok reached =>
    obtain ⟨newest, u⟩ := reached
    have both : s.toList ++ [UInt16.ofNat address] = u.toList ++ [newest] := by
      rw [← toList_push pushed, toList_pop popped]
    obtain ⟨below, top⟩ := List.append_inj' both rfl
    have back : u = s :=
      eq_of_toList_eq (canonical_pop (canonical_push canonical pushed) popped) canonical below.symm
    rw [back, List.singleton_inj.mp top]

end

/-- Whatever is asked, from the empty stack on. The beginnings of a sequence of requests
are sequences of requests, so the slots hold the list after each of them. -/
theorem refines_list (requests : List Request) :
    let reached := serveAll serve empty requests
    let expected := serveAll serveList [] requests
    reached.2 = expected.2 ∧
    expected.1.length ≤ capacity ∧
    reached.1.depth = expected.1.length ∧
    (∀ k (bound : k < 16), reached.1.slots[k].toNat = expected.1.getD k 0) ∧
    ∀ address, reached.1.depth < capacity → address < Memory.size →
      ∃ t newest, reached.1.push address = .ok t ∧ t.pop = .ok (newest, reached.1) ∧
        newest.toNat = address := by
  intro reached expected
  obtain ⟨replies, lists⟩ := serveAll_of_lists lists_empty requests
  refine ⟨replies, lists.length_le, lists.depth, ?_, ?_⟩
  · intro k bound
    exact lists.slot bound
  · intro address room inside
    cases pushed : reached.1.push address with
    | error f =>
      obtain ⟨full, -⟩ | ⟨-, outside, -⟩ := push_eq_error_iff.mp pushed
      · exact absurd full (Nat.ne_of_lt room)
      · exact absurd inside (Nat.not_lt_of_le outside)
    | ok t => exact ⟨t, _, rfl, pop_push lists.canonical pushed, toNat_of_inside inside⟩

/-- A pop too many, a push beyond memory, and a last push that is taken back. -/
theorem refines_list_refusing :
    let reached := serveAll serve empty [.pop, .push 0x1000, .push 0xFFF, .push 0x202, .pop]
    reached.2 = [.error .stackEmpty, .error (.returnOutsideMemory 0x1000), .ok none, .ok none,
      .ok (some 0x202)] ∧
    reached.1.depth = 1 ∧ reached.1.slots[0].toNat = 0xFFF ∧ reached.1.slots[1].toNat = 0 ∧
    ∃ t newest, reached.1.push 0x204 = .ok t ∧ t.pop = .ok (newest, reached.1) ∧
      newest.toNat = 0x204 := by
  obtain ⟨replies, -, depth, slots, back⟩ :=
    refines_list [.pop, .push 0x1000, .push 0xFFF, .push 0x202, .pop]
  exact ⟨replies, depth, slots 0 (by decide), slots 1 (by decide),
    back 0x204 (by decide) (by decide)⟩

end Chip8.CallStack
