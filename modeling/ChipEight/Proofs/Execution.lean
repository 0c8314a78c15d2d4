import ChipEight.Proofs.Range

/-!
On a machine in range `refusal?` tells why an instruction is refused. A refused instruction changes
nothing, and all others succeed and leave the machine in range.
-/

namespace ChipEight

namespace Memory

variable {m : Memory}

theorem inBounds_natCast {address length : Nat} :
    m.InBounds address length ↔ address + length ≤ m.size := by
  unfold InBounds
  omega

theorem read_of_lt {address : Nat} (inside : address < m.size) :
    m.read address = .ok (m.cells.getD address 0) := by
  have fits : m.InBounds address 1 := inBounds_natCast.mpr inside
  rw [read, if_pos fits, Int.toNat_natCast]

theorem block_of_inBounds {address length : Nat} (inside : address + length ≤ m.size) :
    m.block address length = .ok (m.cells.extract address (address + length)).toList := by
  have stop : m.stop address length = address + length := by
    simp only [Memory.stop]
    rw [if_neg (by omega)]
    omega
  rw [block, if_pos (inBounds_natCast.mpr inside), stop, Int.toNat_natCast]

theorem block_of_not_inBounds {address length : Nat} (sticksOut : m.size < address + length) :
    m.block address length = .error (outside address length) := by
  rw [block, if_neg (by rw [inBounds_natCast]; omega)]

end Memory

namespace Machine

variable {m : Machine}

def blockRefusal? (m : Machine) (length : Nat) : Option Failure :=
  if memorySize < m.registers.index + length then
    some (Memory.outside m.registers.index length)
  else none

/-- Why an instruction cannot be carried out, if it cannot. -/
def refusal? (m : Machine) (i : Instruction) : Option Failure :=
  match i.operation with
  | .ret => if m.stack.depth = 0 then some .stackUnderflow else none
  | .call =>
    if m.stack.depth = stackDepth then some (.stackOverflow (.whole m.registers.pc)) else none
  | .draw => m.blockRefusal? i.n
  | .decimal => m.blockRefusal? 3
  | .store | .load => m.blockRefusal? (i.x + 1)
  | _ => none

theorem refusal?_of_ret {i : Instruction} (ret : i.operation = .ret) (empty : m.stack.depth = 0) :
    m.refusal? i = some .stackUnderflow := by
  simp only [refusal?, ret, empty, if_true]

theorem blockRefusal?_eq_none {length : Nat} :
    m.blockRefusal? length = none ↔ m.registers.index + length ≤ memorySize := by
  unfold blockRefusal?
  split
  · simp only [reduceCtorEq, false_iff]
    omega
  · simp only [true_iff]
    omega

theorem blockRefusal?_eq_some {length : Nat} {failure : Failure} :
    m.blockRefusal? length = some failure ↔ memorySize < m.registers.index + length ∧
      Memory.outside m.registers.index length = failure := by
  rw [blockRefusal?, Option.ite_none_right_eq_some, Option.some.injEq]

theorem executeReturn_of_empty (empty : m.stack.depth = 0) :
    executeReturn m = .error .stackUnderflow m := by
  have refused : onStack CallStack.pop m = .error .stackUnderflow m :=
    Attempt.within_of_error (CallStack.pop_of_empty empty)
  rw [executeReturn, Attempt.bind_of_error refused]

theorem executeReturn_of_calls (calls : 0 < m.stack.depth) (fits : m.stack.depth ≤ stackDepth) :
    ∃ address : Nat, m.stack.addresses = m.stack.shrink.addresses ++ [address] ∧
      executeReturn m = .ok ⟨⟩ ({ m with stack := m.stack.shrink }.goto address) := by
  obtain ⟨address, popped, listed⟩ := CallStack.pop_of_calls calls fits
  have taken : onStack CallStack.pop m = .ok address { m with stack := m.stack.shrink } :=
    Attempt.within_of_ok popped
  refine ⟨address, listed, ?_⟩
  rw [executeReturn, Attempt.bind_of_ok taken, Attempt.modify_apply]

theorem executeCall_of_full {address : Nat} (full : stackDepth ≤ m.stack.depth) :
    executeCall address m = .error (.stackOverflow (.whole m.registers.pc)) m := by
  have refused : onStack (CallStack.push m.registers.pc) m =
      .error (.stackOverflow (.whole m.registers.pc)) m :=
    Attempt.within_of_error (CallStack.push_of_full full)
  rw [executeCall, Attempt.get_bind, Attempt.bind_of_error refused]

theorem executeCall_of_room {address : Nat} (room : m.stack.depth < stackDepth)
    (fits : m.registers.pc ≤ 0xFFFF) :
    executeCall address m =
      .ok ⟨⟩ ({ m with stack := m.stack.grow m.registers.pc }.goto address) := by
  have pushed : onStack (CallStack.push m.registers.pc) m =
      .ok ⟨⟩ { m with stack := m.stack.grow m.registers.pc } :=
    Attempt.within_of_ok (CallStack.push_of_room room fits)
  rw [executeCall, Attempt.get_bind, Attempt.bind_of_ok pushed, Attempt.modify_apply]

theorem executeDraw_of_outside {i : Instruction}
    (sticksOut : m.memory.size < m.registers.index + i.n) :
    executeDraw i m = .error (Memory.outside m.registers.index i.n) m := by
  rw [executeDraw, Attempt.get_bind, Memory.block_of_not_inBounds sticksOut]
  rfl

theorem executeDraw_of_inside {i : Instruction} (inside : m.registers.index + i.n ≤ m.memory.size) :
    ∃ screen collision, executeDraw i m = .ok ⟨⟩ ({ m with screen }.setFlag collision) ∧
      (m.screen.InRange → screen.InRange) := by
  obtain ⟨collision, screen, drawn⟩ := Framebuffer.draw_succeeds (m.spritePlace i).2
    (m.memory.cells.extract m.registers.index (m.registers.index + i.n)).toList m.screen
    (show (m.spritePlace i).1 < screenWidth from Nat.mod_lt _ (by decide))
  have kept (range : m.screen.InRange) : screen.InRange := by
    have left := Framebuffer.InRange.draw (m.spritePlace i).1 (m.spritePlace i).2
      (m.memory.cells.extract m.registers.index (m.registers.index + i.n)).toList m.screen range
    rwa [drawn] at left
  refine ⟨screen, collision, ?_, kept⟩
  rw [executeDraw, Attempt.get_bind, Memory.block_of_inBounds inside]
  have shown : onScreen (Framebuffer.draw (m.spritePlace i).1 (m.spritePlace i).2
      (m.memory.cells.extract m.registers.index (m.registers.index + i.n)).toList) m =
      .ok collision { m with screen } :=
    Attempt.within_of_ok drawn
  exact (Attempt.bind_of_ok shown).trans (Attempt.modify_apply _ _)

theorem storeAtIndex_of_outside {values : List Nat}
    (sticksOut : m.memory.size < m.registers.index + values.length) :
    storeAtIndex values m = .error (Memory.outside m.registers.index values.length) m := by
  have refused : ¬ m.memory.InBounds m.registers.index (values.map fun n : Nat => (n : Int)).length := by
    rw [List.length_map, Memory.inBounds_natCast]
    omega
  rw [storeAtIndex, Attempt.get_bind, ← List.length_map fun n : Nat => (n : Int)]
  exact Attempt.within_of_error (Memory.writeValues_of_not_inBounds refused)

theorem storeAtIndex_of_inside {values : List Nat}
    (inside : m.registers.index + values.length ≤ m.memory.size) :
    storeAtIndex values m = .ok ⟨⟩ { m with
      memory := m.memory.splice m.registers.index (values.map fun n : Nat => lowByte n) } := by
  have stored : m.memory.InBounds m.registers.index (values.map fun n : Nat => (n : Int)).length := by
    rw [List.length_map, Memory.inBounds_natCast]
    exact inside
  rw [storeAtIndex, Attempt.get_bind]
  refine (Attempt.within_of_ok (Memory.writeValues_of_inBounds stored)).trans ?_
  rw [List.map_map]
  rfl

theorem executeLoad_of_outside {x : Register}
    (sticksOut : m.memory.size < m.registers.index + (x + 1)) :
    executeLoad x m = .error (Memory.outside m.registers.index (x + 1 : Nat)) m := by
  rw [executeLoad, Attempt.get_bind, Memory.block_of_not_inBounds sticksOut]
  rfl

theorem executeLoad_of_inside {x : Register}
    (inside : m.registers.index + (x + 1) ≤ m.memory.size) :
    ∃ bytes, executeLoad x m = .ok ⟨⟩ { m with registers := m.registers.load bytes } := by
  refine ⟨(m.memory.cells.extract m.registers.index (m.registers.index + (x + 1))).toList, ?_⟩
  rw [executeLoad, Attempt.get_bind, Memory.block_of_inBounds inside]
  rfl

theorem upTo_length (r : Registers) (x : Register) : (r.upTo x).length = x + 1 := by
  rw [Registers.upTo, List.length_take, Vector.length_toList]
  exact Nat.min_eq_left x.isLt

theorem execute_of_refused {i : Instruction} {failure : Failure} (range : m.InRange)
    (refused : m.refusal? i = some failure) : execute i m = .error failure m := by
  simp only [execute, Attempt.get_bind]
  unfold refusal? at refused
  cases op : i.operation with
  | ret =>
    simp only [op, Option.ite_none_right_eq_some, Option.some.injEq] at refused ⊢
    obtain ⟨empty, rfl⟩ := refused
    exact executeReturn_of_empty empty
  | call =>
    simp only [op, Option.ite_none_right_eq_some, Option.some.injEq] at refused ⊢
    obtain ⟨full, rfl⟩ := refused
    exact executeCall_of_full (Nat.le_of_eq full.symm)
  | draw =>
    simp only [op, blockRefusal?_eq_some, ← range.memory] at refused ⊢
    obtain ⟨sticksOut, rfl⟩ := refused
    exact executeDraw_of_outside sticksOut
  | decimal =>
    simp only [op, blockRefusal?_eq_some, ← range.memory] at refused ⊢
    obtain ⟨sticksOut, rfl⟩ := refused
    exact storeAtIndex_of_outside sticksOut
  | store =>
    simp only [op, blockRefusal?_eq_some, ← range.memory, ← upTo_length m.registers i.x]
      at refused ⊢
    obtain ⟨sticksOut, rfl⟩ := refused
    exact storeAtIndex_of_outside sticksOut
  | load =>
    simp only [op, blockRefusal?_eq_some, ← range.memory] at refused ⊢
    obtain ⟨sticksOut, rfl⟩ := refused
    exact executeLoad_of_outside sticksOut
  | _ => simp only [op, reduceCtorEq] at refused

theorem execute_of_accepted {i : Instruction} (range : m.InRange)
    (accepted : m.refusal? i = none) : ∃ done, execute i m = .ok ⟨⟩ done ∧ done.InRange := by
  simp only [execute, Attempt.get_bind]
  unfold refusal? at accepted
  -- the six that may be refused come first, all others succeed on any machine
  cases op : i.operation with
  | ret =>
    simp only [op, ite_eq_right_iff, reduceCtorEq, imp_false] at accepted ⊢
    have calls : 0 < m.stack.depth := Nat.pos_of_ne_zero accepted
    obtain ⟨address, _, returned⟩ := executeReturn_of_calls calls range.stack.depth
    refine ⟨_, returned, InRange.goto ?_ _⟩
    exact { range with stack := range.stack.shrink calls }
  | call =>
    simp only [op, ite_eq_right_iff, reduceCtorEq, imp_false] at accepted ⊢
    have room : m.stack.depth < stackDepth := Nat.lt_of_le_of_ne range.stack.depth accepted
    have address : m.registers.pc < memorySize := range.registers.pc
    refine ⟨_, executeCall_of_room room (Nat.le_trans (Nat.le_of_lt address) (by decide)),
      InRange.goto ?_ _⟩
    exact { range with stack := range.stack.grow room address }
  | draw =>
    simp only [op, blockRefusal?_eq_none, ← range.memory] at accepted ⊢
    obtain ⟨screen, collision, drawn, kept⟩ := executeDraw_of_inside accepted
    exact ⟨_, drawn, (range.setScreen (kept range.screen)).setFlag collision⟩
  | decimal =>
    simp only [op, blockRefusal?_eq_none, ← range.memory] at accepted ⊢
    exact ⟨_, storeAtIndex_of_inside accepted, range.splice accepted⟩
  | store =>
    simp only [op, blockRefusal?_eq_none, ← range.memory, ← upTo_length m.registers i.x]
      at accepted ⊢
    exact ⟨_, storeAtIndex_of_inside accepted, range.splice (by rwa [List.length_map])⟩
  | load =>
    simp only [op, blockRefusal?_eq_none, ← range.memory] at accepted ⊢
    obtain ⟨bytes, loaded⟩ := executeLoad_of_inside accepted
    exact ⟨_, loaded, { range with registers := range.registers.load bytes }⟩
  | clear => exact ⟨_, rfl, range.setScreen (.clear _)⟩
  | jump => exact ⟨_, rfl, range.goto _⟩
  | skipEqualByte => exact ⟨_, rfl, range.skipIf _⟩
  | skipUnequalByte => exact ⟨_, rfl, range.skipIf _⟩
  | skipEqual => exact ⟨_, rfl, range.skipIf _⟩
  | setByte => exact ⟨_, rfl, range.setRegister _ _⟩
  | addByte => exact ⟨_, rfl, range.setRegister _ _⟩
  | copy => exact ⟨_, rfl, range.setRegister _ _⟩
  | or => exact ⟨_, rfl, range.setRegister _ _⟩
  | and => exact ⟨_, rfl, range.setRegister _ _⟩
  | xor => exact ⟨_, rfl, range.setRegister _ _⟩
  | add => exact ⟨_, rfl, range.setResult _ _ _⟩
  | subtract => exact ⟨_, rfl, range.setResult _ _ _⟩
  | shiftRight => exact ⟨_, rfl, range.setResult _ _ _⟩
  | subtractFrom => exact ⟨_, rfl, range.setResult _ _ _⟩
  | shiftLeft => exact ⟨_, rfl, range.setResult _ _ _⟩
  | skipUnequal => exact ⟨_, rfl, range.skipIf _⟩
  | setIndex => exact ⟨_, rfl, range.setIndex _⟩
  | jumpPlus => exact ⟨_, rfl, range.goto _⟩
  | random => exact ⟨_, rfl, { range with registers := range.registers.set _ _ }⟩
  | skipPressed => exact ⟨_, rfl, range.skipIf _⟩
  | skipReleased => exact ⟨_, rfl, range.skipIf _⟩
  | getDelay => exact ⟨_, rfl, range.setRegister _ _⟩
  | awaitKey => exact ⟨_, rfl, range.executeAwaitKey _⟩
  | setDelay => exact ⟨_, rfl, { range with timers := range.timers.setDelay _ }⟩
  | setSound => exact ⟨_, rfl, { range with timers := range.timers.setSound _ }⟩
  | addIndex => exact ⟨_, rfl, range.executeAddIndex _⟩
  | glyph => exact ⟨_, rfl, range.setIndex _⟩

theorem InRange.execute (range : m.InRange) (i : Instruction) :
    (Attempt.left (Machine.execute i m)).InRange := by
  cases outcome : m.refusal? i with
  | some failure =>
    rw [execute_of_refused range outcome]
    exact range
  | none =>
    obtain ⟨done, executed, kept⟩ := execute_of_accepted range outcome
    rw [executed]
    exact kept

end Machine

end ChipEight
