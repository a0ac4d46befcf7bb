import Chip8.Memory

/-! The call stack: sixteen slots and a depth. The addresses in use are the
slots below the depth, oldest first. -/

set_option autoImplicit false

namespace Chip8

structure CallStack where
  slots : Vector UInt16 16
  depth : Nat
  depth_le : depth ≤ 16

namespace CallStack

abbrev capacity : Nat := 16

def empty : CallStack := ⟨Vector.replicate 16 0, 0, by decide⟩

def toList (s : CallStack) : List UInt16 := s.slots.toList.take s.depth

/-- A full stack is reported before a bad address. -/
def push (s : CallStack) (address : Nat) : Except Fault CallStack :=
  if room : s.depth < 16 then
    if address ≥ Memory.size then .error (.returnOutsideMemory address)
    else .ok ⟨s.slots.set s.depth (UInt16.ofNat address), s.depth + 1, room⟩
  else .error .stackFull

/-- Takes the newest address and clears its slot. -/
def pop (s : CallStack) : Except Fault (UInt16 × CallStack) :=
  match s with
  | ⟨_, 0, _⟩ => .error .stackEmpty
  | ⟨slots, depth + 1, le⟩ => .ok (slots[depth], ⟨slots.set depth 0, depth, by omega⟩)

theorem length_toList (s : CallStack) : s.toList.length = s.depth := by
  simp [toList, s.depth_le]

theorem toList_push {s t : CallStack} {address : Nat} (h : s.push address = .ok t) :
    t.toList = s.toList ++ [UInt16.ofNat address] := by
  unfold push at h
  split at h
  case isFalse => cases h
  case isTrue room =>
    split at h
    case isTrue => cases h
    case isFalse =>
      cases h
      simp only [toList]
      rw [Vector.toList_set, List.take_add_one, List.take_set_of_le (by omega),
        List.getElem?_set_self (by simpa using room)]
      rfl

theorem toList_pop {s t : CallStack} {address : UInt16} (h : s.pop = .ok (address, t)) :
    s.toList = t.toList ++ [address] := by
  obtain ⟨slots, depth, le⟩ := s
  cases depth with
  | zero => cases h
  | succ depth =>
      cases h
      simp only [toList]
      rw [Vector.toList_set, List.take_set_of_le (by omega), List.take_add_one,
        Vector.getElem?_toList, Vector.getElem?_eq_getElem (by omega)]
      rfl

end CallStack

end Chip8
