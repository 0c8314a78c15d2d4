import ChipEight.Registers

/-!
Within its places the call stack is the list of its addresses: a push appends to the list and a
pop takes its last element off. Both refuse before they change anything.
-/

namespace ChipEight

namespace CallStack

variable {s : CallStack}

theorem addresses_length (fits : s.depth ≤ stackDepth) : s.addresses.length = s.depth := by
  rw [addresses, List.length_map, List.length_take, Vector.length_toList]
  omega

theorem addresses_eq_nil (empty : s.depth = 0) : s.addresses = [] := by
  rw [addresses, empty, List.take_zero, List.map_nil]

theorem addresses_grow {address : Nat} (room : s.depth < stackDepth) (fits : address ≤ 0xFFFF) :
    (s.grow address).addresses = s.addresses ++ [address] := by
  have place : s.depth < (s.grow address).slots.toList.length := by
    rw [Vector.length_toList]
    exact room
  have kept : (s.grow address).slots.toList.take s.depth = s.slots.toList.take s.depth := by
    simp only [grow, Vector.toList_setIfInBounds, List.take_set_of_le (Nat.le_refl s.depth)]
  have placed : (s.grow address).slots.toList[s.depth] = UInt16.ofNat address := by
    simp only [grow, Vector.toList_setIfInBounds, List.getElem_set_self]
  have short : (UInt16.ofNat address).toNat = address := by
    rw [UInt16.toNat_ofNat']
    omega
  rw [addresses, show (s.grow address).depth = s.depth + 1 from rfl,
    List.take_succ_eq_append_getElem place, kept, placed, List.map_append, List.map_singleton,
    short, addresses]

theorem addresses_shrink (calls : 0 < s.depth) (fits : s.depth ≤ stackDepth) :
    ∃ address, s.slots[s.depth - 1]? = some address ∧
      s.addresses = s.shrink.addresses ++ [address.toNat] := by
  obtain ⟨top, depth⟩ : ∃ top, s.depth = top + 1 := Nat.exists_eq_succ_of_ne_zero (Nat.ne_of_gt calls)
  have place : top < stackDepth := by omega
  have listed : top < s.slots.toList.length := by
    rw [Vector.length_toList]
    exact place
  have shrunk : s.shrink.addresses = (s.slots.toList.take top).map (·.toNat) := by
    rw [addresses, shrink, depth, Nat.add_sub_cancel]
  refine ⟨s.slots[top], ?_, ?_⟩
  · rw [depth, Nat.add_sub_cancel]
    exact Vector.getElem?_eq_getElem place
  · rw [shrunk, addresses, depth, List.take_succ_eq_append_getElem listed, Vector.getElem_toList,
      List.map_append, List.map_singleton]

theorem peek_eq_getLast? (fits : s.depth ≤ stackDepth) : s.peek = s.addresses.getLast? := by
  rcases Nat.eq_zero_or_pos s.depth with empty | calls
  · rw [peek, if_pos empty, addresses_eq_nil empty, List.getLast?_nil]
  · obtain ⟨address, top, listed⟩ := addresses_shrink calls fits
    rw [peek, if_neg (by omega), top, listed, List.getLast?_concat, Option.map_some]

theorem push_of_full {address : Int} (full : stackDepth ≤ s.depth) :
    push address s = .error (.stackOverflow (.whole address)) s := by
  rw [push, Attempt.bind_of_ok (Attempt.get_apply s), if_neg (by omega), Attempt.throw_apply]

theorem push_of_room {address : Nat} (room : s.depth < stackDepth) (fits : address ≤ 0xFFFF) :
    push address s = .ok ⟨⟩ (s.grow address) := by
  rw [push, Attempt.bind_of_ok (Attempt.get_apply s), if_pos room, if_pos (by omega),
    Attempt.set_apply, Int.toNat_natCast]

theorem pop_of_empty (empty : s.depth = 0) : pop s = .error .stackUnderflow s := by
  rw [pop, Attempt.bind_of_ok (Attempt.get_apply s), if_pos empty, Attempt.throw_apply]

theorem pop_of_calls (calls : 0 < s.depth) (fits : s.depth ≤ stackDepth) :
    ∃ address, pop s = .ok address s.shrink ∧ s.addresses = s.shrink.addresses ++ [address] := by
  obtain ⟨address, top, listed⟩ := addresses_shrink calls fits
  refine ⟨address.toNat, ?_, listed⟩
  rw [pop, Attempt.bind_of_ok (Attempt.get_apply s), if_neg (by omega),
    Attempt.bind_of_ok (Attempt.set_apply s s.shrink), top]
  rfl

end CallStack

end ChipEight
