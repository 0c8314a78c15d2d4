import ChipEight.Proofs.Frame

/-!
Each operation names the few parts of a machine that it may change. All the rest is after an
instruction as it was before, and an instruction that is refused changes nothing at all.
-/

namespace ChipEight

open EStateM (Result)

namespace Attempt

variable {σ τ α β : Type}

theorem bind_eq_ok {x : Attempt σ α} {f : α → Attempt σ β} {s u : σ} {b : β}
    (h : (x >>= f) s = .ok b u) : ∃ a t, x s = .ok a t ∧ f a t = .ok b u := by
  cases outcome : x s with
  | ok a t =>
    rw [bind_of_ok outcome] at h
    exact ⟨a, t, rfl, h⟩
  | error failure t =>
    rw [bind_of_error outcome] at h
    cases h

theorem within_eq_ok {part : τ → σ} {put : τ → σ → τ} {x : Attempt σ α} {whole after : τ} {a : α}
    (h : within part put x whole = .ok a after) :
    ∃ left, x (part whole) = .ok a left ∧ after = put whole left := by
  cases outcome : x (part whole) with
  | ok b left =>
    rw [within_of_ok outcome] at h
    cases h
    exact ⟨left, rfl, rfl⟩
  | error failure left =>
    rw [within_of_error outcome] at h
    cases h

theorem lift_eq_ok {x : Except Failure α} {s t : σ} {a : α}
    (h : (monadLift x : Attempt σ α) s = .ok a t) : x = .ok a ∧ t = s := by
  cases x with
  | ok b =>
    cases h
    exact ⟨rfl, rfl⟩
  | error failure => cases h

end Attempt

/-! ### What an operation may change -/

namespace Instruction

def Writes (i : Instruction) (implementation : Implementation) (k : Register) : Prop :=
  match i.operation with
  | .setByte | .addByte | .copy | .or | .and | .xor | .random | .getDelay | .awaitKey => k = i.x
  | .add | .subtract | .shiftRight | .subtractFrom | .shiftLeft => k = i.x ∨ k = flagRegister
  | .draw => k = flagRegister
  | .addIndex => k = flagRegister ∧ implementation.indexOverflowSetsVf
  | .load => k ≤ i.x
  | _ => False

def bytesWritten (i : Instruction) : Nat :=
  match i.operation with
  | .decimal => 3
  | .store => i.x + 1
  | _ => 0

end Instruction

namespace Machine

/-- Nothing but the program counter differs beyond what the instruction may change. -/
structure Confined (i : Instruction) (m after : Machine) : Prop where
  bytes : ∀ a, ¬ (m.registers.index ≤ a ∧ a < m.registers.index + i.bytesWritten) →
    after.memory.cells.getD a 0 = m.memory.cells.getD a 0
  size : after.memory.size = m.memory.size
  screen : i.operation ≠ .clear → i.operation ≠ .draw → after.screen = m.screen
  shown : after.screen.cells ≠ m.screen.cells → after.screen.dirty = true
  dirty : m.screen.dirty = true → after.screen.dirty = true
  stack : i.operation ≠ .call → i.operation ≠ .ret → after.stack = m.stack
  delay : i.operation ≠ .setDelay → after.timers.delay = m.timers.delay
  sound : i.operation ≠ .setSound → after.timers.sound = m.timers.sound
  index : i.operation ≠ .setIndex → i.operation ≠ .addIndex → i.operation ≠ .glyph →
    after.registers.index = m.registers.index
  keys : after.pad.cells = m.pad.cells
  released : i.operation ≠ .awaitKey → after.pad.released = m.pad.released
  awaitingKey : i.operation ≠ .awaitKey → after.awaitingKey = m.awaitingKey
  random : after.random =
    { m.random with taken := m.random.taken + if i.operation = .random then 1 else 0 }
  registers : ∀ k, ¬ i.Writes m.settings.implementation k →
    after.registers.get k = m.registers.get k
  fixed : after.fixedPart = m.fixedPart

end Machine

/-! ### Parts -/

namespace Registers

variable {r : Registers}

theorem get_set_of_ne {x k : Register} (other : k ≠ x) (n : Int) : (r.set x n).get k = r.get k := by
  rw [get_set, if_neg other]

theorem index_loadFrom (k : Nat) (bytes : List UInt8) : (r.loadFrom k bytes).index = r.index := by
  induction bytes generalizing k r with
  | nil => rfl
  | cons b bytes ih =>
    rw [loadFrom, ih]
    split <;> rfl

theorem pc_loadFrom (k : Nat) (bytes : List UInt8) : (r.loadFrom k bytes).pc = r.pc := by
  induction bytes generalizing k r with
  | nil => rfl
  | cons b bytes ih =>
    rw [loadFrom, ih]
    split <;> rfl

theorem get_loadFrom {k : Nat} {bytes : List UInt8} {y : Register} (behind : k + bytes.length ≤ y) :
    (r.loadFrom k bytes).get y = r.get y := by
  induction bytes generalizing k r with
  | nil => rfl
  | cons b bytes ih =>
    rw [List.length_cons] at behind
    rw [loadFrom, ih (by omega)]
    split
    · have other : y ≠ ⟨k, by assumption⟩ := by
        rintro rfl
        simp only at behind
        omega
      exact get_set_of_ne other _
    · rfl

end Registers

theorem CallStack.push_refused {s left : CallStack} {address : Int} {failure : Failure}
    (refused : push address s = .error failure left) : left = s := by
  rw [push, Attempt.get_bind] at refused
  split at refused
  · split at refused
    · cases refused
    · cases refused
      rfl
  · cases refused
    rfl

theorem Framebuffer.dirty_of_draw {width height : Nat} {x y : Int} {rows : List UInt8} {hit : Bool}
    {f drawn : Framebuffer width height} (done : draw x y rows f = .ok hit drawn) :
    drawn.dirty = true := by
  obtain ⟨_, laid, _, rest⟩ := Attempt.bind_eq_ok done
  obtain ⟨_, _, modified, answered⟩ := Attempt.bind_eq_ok rest
  cases modified
  cases answered
  rfl

/-! ### Instructions -/

namespace Machine

variable {i : Instruction} {m : Machine}

namespace Confined

theorem of_registers {registers : Registers} (plain : i.operation ≠ .random)
    (index : i.operation ≠ .setIndex → i.operation ≠ .addIndex → i.operation ≠ .glyph →
      registers.index = m.registers.index)
    (written : ∀ k, ¬ i.Writes m.settings.implementation k →
      registers.get k = m.registers.get k) : Confined i m { m with registers } where
  bytes _ _ := rfl
  size := rfl
  screen _ _ := rfl
  shown changed := absurd rfl changed
  dirty dirty := dirty
  stack _ _ := rfl
  delay _ := rfl
  sound _ := rfl
  index := index
  keys := rfl
  released _ := rfl
  awaitingKey _ := rfl
  random := by rw [if_neg plain]; rfl
  registers := written
  fixed := rfl

theorem same (plain : i.operation ≠ .random) : Confined i m m :=
  of_registers plain (fun _ _ _ => rfl) fun _ _ => rfl

theorem goto (plain : i.operation ≠ .random) (address : Int) : Confined i m (m.goto address) :=
  of_registers plain (fun _ _ _ => rfl) fun _ _ => rfl

theorem skipIf (plain : i.operation ≠ .random) (condition : Bool) :
    Confined i m (m.skipIf condition) := by
  unfold Machine.skipIf
  split
  · exact of_registers plain (fun _ _ _ => rfl) fun _ _ => rfl
  · exact same plain

theorem setRegister (plain : i.operation ≠ .random)
    (writes : i.Writes m.settings.implementation i.x) (n : Int) :
    Confined i m (m.setRegister i.x n) := by
  refine of_registers plain (fun _ _ _ => rfl) fun k spared => ?_
  have other : k ≠ i.x := by
    rintro rfl
    exact spared writes
  exact Registers.get_set_of_ne other n

theorem setResult (plain : i.operation ≠ .random)
    (writes : ∀ k, i.Writes m.settings.implementation k ↔ k = i.x ∨ k = flagRegister) (n : Int)
    (flag : Bool) : Confined i m (m.setResult i.x n flag) := by
  refine of_registers plain (fun _ _ _ => rfl) fun k spared => ?_
  rw [writes, not_or] at spared
  obtain ⟨result, carry⟩ := spared
  exact (Registers.get_set_of_ne carry _).trans (Registers.get_set_of_ne result n)

theorem setIndex (plain : i.operation ≠ .random)
    (moves : i.operation = .setIndex ∨ i.operation = .addIndex ∨ i.operation = .glyph) (n : Int) :
    Confined i m { m with registers := m.registers.setIndex n } := by
  refine of_registers plain (fun set add glyph => ?_) fun _ _ => rfl
  rcases moves with moves | moves | moves
  · exact absurd moves set
  · exact absurd moves add
  · exact absurd moves glyph

end Confined

inductive Effect (i : Instruction) (m : Machine) : Result Failure Machine Unit → Prop
  | done {after : Machine} (confined : Confined i m after) : Effect i m (.ok ⟨⟩ after)
  | refused (failure : Failure) : Effect i m (.error failure m)

theorem executeDraw_eq_ok {after : Machine} (drawn : executeDraw i m = .ok ⟨⟩ after) :
    ∃ screen collision, screen.dirty = true ∧ after = { m with screen }.setFlag collision := by
  rw [executeDraw, Attempt.get_bind] at drawn
  obtain ⟨sprite, _, read, rest⟩ := Attempt.bind_eq_ok drawn
  obtain ⟨_, rfl⟩ := Attempt.lift_eq_ok read
  obtain ⟨collision, _, shown, modified⟩ := Attempt.bind_eq_ok rest
  obtain ⟨screen, laid, rfl⟩ := Attempt.within_eq_ok shown
  cases modified
  exact ⟨screen, collision, Framebuffer.dirty_of_draw laid, rfl⟩

theorem executeAwaitKey_confined (plain : i.operation ≠ .random) (wait : i.operation = .awaitKey) :
    Confined i m (m.executeAwaitKey i.x) := by
  have keys : (if m.awaitingKey then m.pad else m.pad.beginWait).cells = m.pad.cells := by
    split <;> rfl
  simp only [executeAwaitKey]
  split
  · exact
      { Confined.same plain with
        keys := keys
        released := fun other => absurd wait other
        awaitingKey := fun other => absurd wait other }
  · have taken (k : Register) (spared : ¬ i.Writes m.settings.implementation k) (key : Nat) :
        (m.registers.set i.x key).get k = m.registers.get k := by
      refine Registers.get_set_of_ne (fun result => spared ?_) _
      rw [Instruction.Writes, wait]
      exact result
    exact
      { Confined.same plain with
        keys := keys
        released := fun other => absurd wait other
        awaitingKey := fun other => absurd wait other
        registers := fun k spared => taken k spared _ }

theorem executeAddIndex_confined (plain : i.operation ≠ .random) (add : i.operation = .addIndex) :
    Confined i m (m.executeAddIndex i.x) := by
  refine .of_registers plain (fun _ other _ => absurd add other) fun k spared => ?_
  split
  · rename_i reports
    refine Registers.get_set_of_ne (fun flag => spared ?_) _
    rw [Instruction.Writes, add]
    exact ⟨flag, reports⟩
  · rfl

theorem executeRandom_confined (random : i.operation = .random) (n : Int) :
    Confined i m { m with random := m.random.next.2, registers := m.registers.set i.x n } := by
  have drawn (k : Register) (spared : ¬ i.Writes m.settings.implementation k) :
      (m.registers.set i.x n).get k = m.registers.get k := by
    refine Registers.get_set_of_ne (fun result => spared ?_) _
    rw [Instruction.Writes, random]
    exact result
  exact
    { bytes := fun _ _ => rfl
      size := rfl
      screen := fun _ _ => rfl
      shown := fun changed => absurd rfl changed
      dirty := id
      stack := fun _ _ => rfl
      delay := fun _ => rfl
      sound := fun _ => rfl
      index := fun _ _ _ => rfl
      keys := rfl
      released := fun _ => rfl
      awaitingKey := fun _ => rfl
      random := by rw [if_pos random]; rfl
      registers := drawn
      fixed := rfl }

namespace Effect

theorem executeReturn (plain : i.operation ≠ .random) (ret : i.operation = .ret)
    (fits : m.stack.depth ≤ stackDepth) : Effect i m (executeReturn m) := by
  rcases Nat.eq_zero_or_pos m.stack.depth with empty | calls
  · rw [executeReturn_of_empty empty]
    exact .refused _
  · obtain ⟨address, _, returned⟩ := executeReturn_of_calls calls fits
    rw [returned]
    exact .done { Confined.same plain with stack := fun _ other => absurd ret other }

theorem executeCall (plain : i.operation ≠ .random) (call : i.operation = .call) (address : Nat) :
    Effect i m (executeCall address m) := by
  rw [Machine.executeCall, Attempt.get_bind]
  cases pushed : CallStack.push m.registers.pc m.stack with
  | ok _ stack =>
    have taken : onStack (CallStack.push m.registers.pc) m = .ok ⟨⟩ { m with stack } :=
      Attempt.within_of_ok pushed
    rw [Attempt.bind_of_ok taken, Attempt.modify_apply]
    exact .done { Confined.same plain with stack := fun other _ => absurd call other }
  | error failure left =>
    have refused : onStack (CallStack.push m.registers.pc) m = .error failure m := by
      have kept := CallStack.push_refused pushed
      subst kept
      exact Attempt.within_of_error pushed
    rw [Attempt.bind_of_error refused]
    exact .refused failure

theorem executeDraw (plain : i.operation ≠ .random) (draw : i.operation = .draw) :
    Effect i m (executeDraw i m) := by
  rcases Nat.lt_or_ge m.memory.size (m.registers.index + i.n) with sticksOut | inside
  · rw [executeDraw_of_outside sticksOut]
    exact .refused _
  · obtain ⟨_, _, drawn, _⟩ := executeDraw_of_inside inside
    obtain ⟨screen, collision, dirty, after⟩ := executeDraw_eq_ok drawn
    rw [drawn, after]
    have flagged (k : Register) (spared : ¬ i.Writes m.settings.implementation k) :
        ({ m with screen }.setFlag collision).registers.get k = m.registers.get k := by
      refine Registers.get_set_of_ne (fun flag => spared ?_) _
      rw [Instruction.Writes, draw]
      exact flag
    exact .done
      { Confined.same plain with
        screen := fun _ other => absurd draw other
        shown := fun _ => dirty
        dirty := fun _ => dirty
        registers := flagged }

theorem storeAtIndex {values : List Nat} (plain : i.operation ≠ .random)
    (written : values.length = i.bytesWritten) : Effect i m (storeAtIndex values m) := by
  rcases Nat.lt_or_ge m.memory.size (m.registers.index + values.length) with sticksOut | inside
  · rw [storeAtIndex_of_outside sticksOut]
    exact .refused _
  · rw [storeAtIndex_of_inside inside]
    have fits : m.registers.index + (values.map fun n : Nat => lowByte n).length ≤ m.memory.size := by
      rwa [List.length_map]
    refine .done
      { Confined.same plain with
        bytes := fun a outside => ?_
        size := Memory.size_splice _ _ _ fits }
    rw [Memory.getD_splice _ _ _ _ fits, List.length_map, written, if_neg outside]

theorem executeLoad (plain : i.operation ≠ .random) (load : i.operation = .load) :
    Effect i m (executeLoad i.x m) := by
  rcases Nat.lt_or_ge m.memory.size (m.registers.index + (i.x + 1)) with sticksOut | inside
  · rw [executeLoad_of_outside sticksOut]
    exact .refused _
  · have length : (m.memory.cells.extract m.registers.index
        (m.registers.index + (i.x + 1))).toList.length = i.x + 1 := by
      unfold Memory.size at inside
      rw [Array.length_toList, Array.size_extract]
      omega
    rw [Machine.executeLoad, Attempt.get_bind, Memory.block_of_inBounds inside]
    refine .done (.of_registers plain (fun _ _ _ => Registers.index_loadFrom _ _) fun k spared => ?_)
    rw [Instruction.Writes, load] at spared
    refine Registers.get_loadFrom ?_
    rw [length, Nat.zero_add]
    exact Fin.not_le.mp spared

/-- An instruction changes only what it may, or is refused and changes nothing. -/
theorem execute (i : Instruction) (fits : m.stack.depth ≤ stackDepth) :
    Effect i m (execute i m) := by
  simp only [Machine.execute, Attempt.get_bind]
  by_cases random : i.operation = .random
  · rw [random]
    exact .done (executeRandom_confined random _)
  -- all others leave the random source alone
  cases op : i.operation with
  | random => exact absurd op random
  | ret => exact executeReturn random op fits
  | call => exact executeCall random op _
  | draw => exact executeDraw random op
  | decimal => exact storeAtIndex random (by rw [Instruction.bytesWritten, op]; rfl)
  | store =>
    exact storeAtIndex random (by rw [Instruction.bytesWritten, op]; exact upTo_length _ _)
  | load => exact executeLoad random op
  | awaitKey => exact .done (executeAwaitKey_confined random op)
  | addIndex => exact .done (executeAddIndex_confined random op)
  | clear =>
    exact .done
      { Confined.same random with
        screen := fun other _ => absurd op other
        shown := fun _ => rfl
        dirty := fun _ => rfl }
  | setDelay => exact .done { Confined.same random with delay := fun other => absurd op other }
  | setSound => exact .done { Confined.same random with sound := fun other => absurd op other }
  | jump | jumpPlus => exact .done (.goto random _)
  | skipEqualByte | skipUnequalByte | skipEqual | skipUnequal | skipPressed | skipReleased =>
    exact .done (.skipIf random _)
  | setByte | addByte | copy | or | and | xor | getDelay =>
    exact .done (.setRegister random (by rw [Instruction.Writes, op]) _)
  | add | subtract | shiftRight | subtractFrom | shiftLeft =>
    exact .done (.setResult random (fun _ => by rw [Instruction.Writes, op]) _ _)
  | setIndex => exact .done (.setIndex random (.inl op) _)
  | glyph => exact .done (.setIndex random (.inr (.inr op)) _)

end Effect

/-- An instruction that succeeds changes only what it may, and one that fails changes nothing. -/
theorem execute_confined (i : Instruction) (fits : m.stack.depth ≤ stackDepth) :
    (∀ after, execute i m = .ok ⟨⟩ after → Confined i m after) ∧
      ∀ failure left, execute i m = .error failure left → left = m := by
  have effect := Effect.execute i fits
  constructor
  · intro after executed
    rw [executed] at effect
    cases effect with
    | done confined => exact confined
  · intro failure left refused
    rw [refused] at effect
    cases effect with
    | refused => rfl

/-- An addition with a carry, and a return without a call. -/
theorem execute_confined_of_carry :
    let m := (new.setRegister 0 200).setRegister 1 100
    m.stack.depth ≤ stackDepth ∧
      (∃ after, execute ⟨.add, 0x8014⟩ m = .ok ⟨⟩ after ∧ Confined ⟨.add, 0x8014⟩ m after ∧
        after.registers.get 0 = 44 ∧ after.registers.get flagRegister = 1) ∧
      ∃ left, execute ⟨.ret, 0x00EE⟩ m = .error .stackUnderflow left ∧ left = m := by
  intro m
  have fits : m.stack.depth ≤ stackDepth := by decide
  have returned : execute ⟨.ret, 0x00EE⟩ m = .error .stackUnderflow m :=
    executeReturn_of_empty (m := m) rfl
  exact ⟨fits, ⟨_, rfl, (execute_confined _ fits).1 _ rfl, by decide, by decide⟩,
    ⟨_, returned, (execute_confined _ fits).2 _ _ returned⟩⟩

end Machine

end ChipEight
