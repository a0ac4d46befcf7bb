import Chip8.CallStack

/-! Call stacks whose unused slots are zero. Such a stack is determined by its
addresses in use, and the operations keep it so. -/

set_option autoImplicit false

namespace Chip8.CallStack

/-- Every slot from the depth on is zero. -/
def Canonical (s : CallStack) : Prop :=
  ∀ k (bound : k < 16), s.depth ≤ k → s.slots[k] = 0

theorem push_eq_ok {s t : CallStack} {address : Nat} (h : s.push address = .ok t) :
    ∃ room : s.depth < 16, address < Memory.size ∧
      t = ⟨s.slots.set s.depth (UInt16.ofNat address), s.depth + 1, room⟩ := by
  unfold push at h
  split at h
  case isFalse => cases h
  case isTrue room =>
    split at h
    case isTrue => cases h
    case isFalse inside =>
      cases h
      exact ⟨room, by omega, rfl⟩

theorem push_eq_error_iff {s : CallStack} {address : Nat} {f : Fault} :
    s.push address = .error f ↔
      (s.depth = 16 ∧ f = .stackFull) ∨
      (s.depth < 16 ∧ Memory.size ≤ address ∧ f = .returnOutsideMemory address) := by
  have bound := s.depth_le
  unfold push
  split
  case isFalse full =>
    have depth : s.depth = 16 := by omega
    simp [depth, eq_comm]
  case isTrue room =>
    split
    case isTrue outside => simp [room, Nat.ne_of_lt room, outside, eq_comm]
    case isFalse inside => simp [Nat.ne_of_lt room, inside]

theorem pop_eq_error_iff {s : CallStack} {f : Fault} :
    s.pop = .error f ↔ s.depth = 0 ∧ f = .stackEmpty := by
  obtain ⟨slots, depth, le⟩ := s
  cases depth with
  | zero => simp [pop, eq_comm]
  | succ depth => simp [pop]

theorem depth_push {s t : CallStack} {address : Nat} (h : s.push address = .ok t) :
    t.depth = s.depth + 1 := by
  obtain ⟨_, _, rfl⟩ := push_eq_ok h
  rfl

theorem depth_pop {s t : CallStack} {address : UInt16} (h : s.pop = .ok (address, t)) :
    s.depth = t.depth + 1 := by
  have lengths := congrArg List.length (toList_pop h)
  simpa [length_toList] using lengths

theorem canonical_empty : empty.Canonical := by
  intro k bound _
  simp [empty]

theorem canonical_push {s t : CallStack} {address : Nat} (canonical : s.Canonical)
    (h : s.push address = .ok t) : t.Canonical := by
  obtain ⟨room, _, rfl⟩ := push_eq_ok h
  intro k bound above
  have unused : s.depth ≠ k := by
    have : s.depth + 1 ≤ k := above
    omega
  simp only [Vector.getElem_set, if_neg unused]
  exact canonical k bound (Nat.le_of_succ_le above)

theorem canonical_pop {s t : CallStack} {address : UInt16} (canonical : s.Canonical)
    (h : s.pop = .ok (address, t)) : t.Canonical := by
  obtain ⟨slots, depth, le⟩ := s
  cases depth with
  | zero => cases h
  | succ depth =>
    cases h
    intro k bound above
    by_cases freed : depth = k
    · simp only [Vector.getElem_set, if_pos freed]
    · simp only [Vector.getElem_set, if_neg freed]
      have above : depth ≤ k := above
      exact canonical k bound (show depth + 1 ≤ k by omega)

/-- Every address in use satisfies the condition. -/
def Holds (s : CallStack) (p : UInt16 → Prop) : Prop :=
  ∀ k (bound : k < 16), k < s.depth → p s.slots[k]

theorem holds_empty (p : UInt16 → Prop) : empty.Holds p :=
  fun _ _ used => absurd used (Nat.not_lt_zero _)

theorem holds_push {s t : CallStack} {p : UInt16 → Prop} {address : Nat} (holds : s.Holds p)
    (new : p (UInt16.ofNat address)) (h : s.push address = .ok t) : t.Holds p := by
  obtain ⟨room, _, rfl⟩ := push_eq_ok h
  intro k bound used
  by_cases top : s.depth = k
  · simp only [Vector.getElem_set, if_pos top]
    exact new
  · simp only [Vector.getElem_set, if_neg top]
    have below : k < s.depth := by
      have : k < s.depth + 1 := used
      omega
    exact holds k bound below

theorem holds_pop {s t : CallStack} {p : UInt16 → Prop} {address : UInt16} (holds : s.Holds p)
    (h : s.pop = .ok (address, t)) : p address ∧ t.Holds p := by
  obtain ⟨slots, depth, le⟩ := s
  cases depth with
  | zero => cases h
  | succ depth =>
    cases h
    refine ⟨holds depth le (Nat.lt_succ_self depth), ?_⟩
    intro k bound used
    have below : k < depth := used
    have kept : (slots.set depth 0)[k] = slots[k] :=
      Vector.getElem_set_ne _ bound (Nat.ne_of_gt below)
    exact kept ▸ holds k bound (Nat.lt_succ_of_lt below)

theorem getElem?_toList {s : CallStack} {k : Nat} (used : k < s.depth) (bound : k < 16) :
    s.toList[k]? = some s.slots[k] := by
  simp [toList, used, bound]

/-- A canonical stack holds nothing but its addresses in use. -/
theorem eq_of_toList_eq {s t : CallStack} (hs : s.Canonical) (ht : t.Canonical)
    (same : s.toList = t.toList) : s = t := by
  have depths : s.depth = t.depth := by
    simpa only [length_toList] using congrArg List.length same
  have slots : s.slots = t.slots := by
    apply Vector.ext
    intro k bound
    by_cases used : k < s.depth
    · have entry := getElem?_toList used bound
      rw [same, getElem?_toList (depths ▸ used) bound] at entry
      exact (Option.some.inj entry).symm
    · rw [hs k bound (by omega), ht k bound (by omega)]
  cases s
  cases t
  simp_all

end Chip8.CallStack
