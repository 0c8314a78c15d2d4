import ChipEight.Proofs.Reachable

/-!
Which words stop a machine, and what a stop changes. `stopCause` says it word by word, without the
decoder: the kind of the fault and the value that it names.
-/

namespace ChipEight

namespace Machine

variable {m : Machine}

def blockCause (m : Machine) (length : Nat) : Option (String × Value) :=
  if memorySize < m.registers.index + length then
    some ("OutOfBoundsWrite", .whole m.registers.index)
  else none

/-- The kind and the value of the fault that the word at the program counter brings about. -/
def stopCause (m : Machine) : Option (String × Value) :=
  let pc := m.registers.pc
  let word := m.wordAt pc
  if pc = 0xFFF then some ("OutOfBoundsWrite", .whole 0x1000)
  else if ∀ row ∈ Instruction.table, ¬ row.Matches word then some ("UnknownOpcode", .whole word)
  else if word = 0x00EE then
    if m.stack.depth = 0 then some ("StackUnderflow", .null) else none
  else if word / 4096 = 2 then
    if m.stack.depth = 16 then some ("StackOverflow", .whole ((pc + 2) % 4096 : Nat)) else none
  else if word / 4096 = 0xD then m.blockCause (word % 16)
  else if word / 4096 = 0xF ∧ word % 256 = 0x33 then m.blockCause 3
  else if word / 4096 = 0xF ∧ (word % 256 = 0x55 ∨ word % 256 = 0x65) then
    m.blockCause (word / 256 % 16 + 1)
  else none

theorem blockRefusal?_cause (m : Machine) (length : Nat) :
    (m.fetched.blockRefusal? length).bind Failure.cause? = m.blockCause length := by
  unfold blockRefusal? blockCause
  split
  · rw [if_pos (by assumption)]
    rfl
  · rw [if_neg (by assumption)]
    rfl

theorem refusal?_cause {i : Instruction}
    (decoded : Instruction.decode (m.wordAt m.registers.pc) = .ok i)
    (before : m.registers.pc ≠ lastAddress) :
    (m.fetched.refusal? i).bind Failure.cause? = m.stopCause := by
  have small := m.wordAt_lt m.registers.pc
  have word : i.word = m.wordAt m.registers.pc := word_of_decode decoded
  have matched : ¬ ∀ row ∈ Instruction.table, ¬ row.Matches (m.wordAt m.registers.pc) := by
    intro unknown
    rw [Instruction.decode_of_no_match (by rwa [wordOf_wordAt])] at decoded
    cases decoded
  have reads {o : Operation} {P : Prop} (fits : o.Fits (m.wordAt m.registers.pc) ↔ P) :
      P ↔ i.operation = o :=
    Instruction.iff_operation_eq decoded fits
  have inside : ¬ m.registers.pc = 0xFFF := before
  -- what `stopCause` asks of the word is now asked of the operation
  simp only [stopCause, if_neg inside, if_neg matched, and_or_left,
    reads (Operation.fits_ret small), reads (Operation.fits_call small),
    reads (Operation.fits_draw small), reads (Operation.fits_decimal small),
    reads (Operation.fits_store small), reads (Operation.fits_load small)]
  unfold refusal?
  cases op : i.operation with
  | ret =>
    by_cases empty : m.stack.depth = 0
    · simp only [Machine.fetched, empty, if_true]
      rfl
    · simp only [Machine.fetched, empty, if_true, if_false]
      rfl
  | call =>
    simp only [reduceCtorEq, if_false, if_true]
    rw [← m.fetched_pc]
    by_cases full : m.stack.depth = 16
    · rw [if_pos full, if_pos (show m.fetched.stack.depth = stackDepth from full)]
      rfl
    · rw [if_neg full, if_neg (show ¬ m.fetched.stack.depth = stackDepth from full)]
      rfl
  | draw =>
    simp only [reduceCtorEq, if_false, if_true, blockRefusal?_cause]
    rw [← word, i.n_eq]
  | decimal => simp only [reduceCtorEq, if_false, if_true, blockRefusal?_cause]
  | store =>
    simp only [reduceCtorEq, if_false, if_true, blockRefusal?_cause, true_or]
    rw [← word, i.x_eq]
  | load =>
    simp only [reduceCtorEq, if_false, if_true, blockRefusal?_cause, or_true]
    rw [← word, i.x_eq]
  | _ => simp only [reduceCtorEq, if_false, or_self, Option.bind_none]

theorem stop?_cause (m : Machine) : m.stop?.bind Failure.cause? = m.stopCause := by
  by_cases last : m.registers.pc = lastAddress
  · rw [stop?_of_last last]
    simp only [stopCause, last, if_true]
    rfl
  · cases decoded : Instruction.decode (m.wordAt m.registers.pc) with
    | ok i =>
      rw [stop?_of_decode last decoded]
      exact refusal?_cause decoded last
    | error failure =>
      rw [stop?_of_error last decoded]
      have inside : ¬ m.registers.pc = 0xFFF := last
      have unknown : ∀ row ∈ Instruction.table, ¬ row.Matches (m.wordAt m.registers.pc) := by
        intro row member matched
        rw [← m.wordOf_wordAt] at matched
        obtain ⟨i, found, _⟩ := Instruction.decode_of_match member matched
        rw [decoded] at found
        cases found
      rw [Instruction.decode_of_no_match (by rwa [wordOf_wordAt]), wordOf_wordAt] at decoded
      cases decoded
      simp only [stopCause, if_neg inside, if_pos unknown]
      rfl

theorem fault?_cause {failure : Failure} {fault : Fault} (named : failure.fault? = some fault) :
    failure.cause? = some (fault.kind, fault.value) := by
  unfold Failure.fault? at named
  obtain ⟨⟨kind, value⟩, cause, rfl⟩ := Option.map_eq_some_iff.mp named
  exact cause

/-- A step of a running machine answers, and its answer is the fault that the word at the program
counter brings about. -/
theorem step_answers_stopCause (reachable : Reachable m) (running : m.fault = none) :
    ∃ answer after, m.step = .ok answer after ∧
      answer.map (fun fault => (fault.kind, fault.value)) = m.stopCause := by
  have range := reachable.inRange
  have cause := m.stop?_cause
  cases outcome : m.stop? with
  | some failure =>
    obtain ⟨fault, named, stepped⟩ := step_of_stop range running outcome
    refine ⟨some fault, _, stepped, ?_⟩
    rw [← cause, outcome, Option.map_some, Option.bind_some, fault?_cause named]
  | none =>
    obtain ⟨_, done, _, _, stepped, _⟩ := step_of_go range running outcome
    refine ⟨none, _, stepped, ?_⟩
    rw [← cause, outcome, Option.map_none, Option.bind_none]

/-- A machine in the middle of a routine that does nothing but call itself. -/
structure Recursing (m : Machine) (depth : Nat) : Prop where
  reachable : Reachable m
  running : m.fault = none
  pc : m.registers.pc = 0x200
  word : m.wordAt 0x200 = 0x2200
  depth : m.stack.depth = depth

theorem Recursing.step {depth : Nat} (recursing : m.Recursing depth) (room : depth < 16) :
    (m.perform .step).Recursing (depth + 1) := by
  have range := recursing.reachable.inRange
  have decoded : Instruction.decode (m.wordAt m.registers.pc) = .ok ⟨.call, 0x2200⟩ := by
    rw [recursing.pc, recursing.word]
    rfl
  have before : m.registers.pc ≠ lastAddress := by
    rw [recursing.pc]
    decide
  have space : m.fetched.stack.depth < stackDepth := by
    rw [fetched_stack, recursing.depth]
    exact room
  have goes : m.stop? = none := by
    rw [stop?_of_decode before decoded]
    exact if_neg (Nat.ne_of_lt space)
  have called : executeCall 0x200 m.fetched = _ :=
    executeCall_of_room space (Nat.le_of_lt (Nat.lt_trans range.fetched.registers.pc (by decide)))
  obtain ⟨i, done, read, executed, stepped, _⟩ := step_of_go range recursing.running goes
  cases decoded.symm.trans read
  cases called.symm.trans executed
  have reachable := Reachable.perform .step recursing.reachable
  rw [perform, stepped, Attempt.left_ok] at reachable ⊢
  exact
    { reachable
      running := recursing.running
      pc := rfl
      word := recursing.word
      depth := congrArg (· + 1) recursing.depth }

theorem Recursing.steps {depth : Nat} (recursing : m.Recursing depth) (n : Nat)
    (room : depth + n ≤ 16) :
    (m.performAll (List.replicate n .step)).Recursing (depth + n) := by
  induction n generalizing m depth with
  | zero => exact recursing
  | succ n ih =>
    have later := ih (recursing.step (by omega)) (by omega)
    rwa [Nat.add_right_comm] at later

theorem recursing_withProgram : (withProgram {} (.cycle 0 []) [0x22, 0x00]).Recursing 0 := by
  have fits : [(0x22 : UInt8), 0x00].length ≤ maxRomSize := by decide
  have word := wordAt_withProgram {} (.cycle 0 []) fits 0 (by decide)
  have reachable := withProgram_reachable {} (.cycle 0 []) [0x22, 0x00]
  rw [withProgram_eq {} (.cycle 0 []) fits] at word reachable ⊢
  exact { reachable, running := rfl, pc := rfl, word, depth := rfl }

/-- The seventeenth call finds sixteen places taken. -/
theorem step_answers_stopCause_of_full_stack :
    let m := (withProgram {} (.cycle 0 []) [0x22, 0x00]).performAll (List.replicate 16 .step)
    Reachable m ∧ m.fault = none ∧ ∃ fault after, m.step = .ok (some fault) after ∧
      fault.kind = "StackOverflow" ∧ fault.value = .whole 0x202 := by
  intro m
  have full : m.Recursing 16 := recursing_withProgram.steps 16 (by decide)
  obtain ⟨answer, after, stepped, names⟩ := step_answers_stopCause full.reachable full.running
  have cause : m.stopCause = some ("StackOverflow", .whole 0x202) := by
    have known : ¬ ∀ row ∈ Instruction.table, ¬ row.Matches 0x2200 := by decide
    simp only [stopCause, full.pc, full.word, full.depth, if_neg known]
    rfl
  rw [cause, Option.map_eq_some_iff] at names
  obtain ⟨fault, rfl, names⟩ := names
  exact ⟨full.reachable, full.running, fault, after, stepped, congrArg Prod.fst names,
    congrArg Prod.snd names⟩

theorem stalled_eq (m : Machine) :
    m.stalled = { m with registers := { m.registers with
      pc := if m.registers.pc = 0xFFF then m.registers.pc else (m.registers.pc + 2) % 4096 } } := by
  unfold stalled
  by_cases last : m.registers.pc = 0xFFF
  · rw [if_pos last, if_pos last]
  · rw [if_neg last, if_neg last, ← fetched_pc]
    rfl

/-- A step that ends in a fault latches the fault and moves the program counter behind the word, if
there is one, and changes nothing else. -/
theorem faulting_step_moves_only_pc {fault : Fault} {after : Machine} (reachable : Reachable m)
    (running : m.fault = none) (stepped : m.step = .ok (some fault) after) :
    after = { m with
      fault := some fault
      registers := { m.registers with
        pc := if m.registers.pc = 0xFFF then m.registers.pc else (m.registers.pc + 2) % 4096 } } := by
  have range := reachable.inRange
  cases outcome : m.stop? with
  | some failure =>
    obtain ⟨latched, _, stops⟩ := step_of_stop range running outcome
    rw [stepped, stalled_eq] at stops
    cases stops
    rfl
  | none =>
    obtain ⟨_, done, _, _, goes, _⟩ := step_of_go range running outcome
    rw [stepped] at goes
    cases goes

theorem stop?_of_return {program : List UInt8} (settings : Settings) (random : Supply UInt8)
    (fits : program.length ≤ maxRomSize) (long : 1 < program.length)
    (ret : (program.getD 0 0).toNat * 256 + (program.getD 1 0).toNat = 0x00EE) :
    (withProgram settings random program).fault = none ∧
      (withProgram settings random program).stop? = some .stackUnderflow := by
  have loaded := withProgram_eq settings random fits
  have word : (withProgram settings random program).wordAt 0x200 = 0x00EE :=
    (wordAt_withProgram settings random fits 0 long).trans ret
  have start : (withProgram settings random program).registers.pc = 0x200 := by rw [loaded]; rfl
  have empty : (withProgram settings random program).fetched.stack.depth = 0 := by
    rw [fetched_stack, loaded]
    rfl
  have decoded : Instruction.decode ((withProgram settings random program).wordAt
      (withProgram settings random program).registers.pc) = .ok ⟨.ret, 0x00EE⟩ := by
    rw [start, word]
    rfl
  refine ⟨by rw [loaded]; rfl, ?_⟩
  rw [stop?_of_decode (by rw [start]; decide) decoded, refusal?_of_ret rfl empty]

theorem faulting_step_moves_only_pc_of_return :
    ∃ fault after, (withProgram {} (.cycle 0 []) [0x00, 0xEE]).step = .ok (some fault) after ∧
      after = { withProgram {} (.cycle 0 []) [0x00, 0xEE] with
        fault := some fault
        registers := { (withProgram {} (.cycle 0 []) [0x00, 0xEE]).registers with
          pc := if (withProgram {} (.cycle 0 []) [0x00, 0xEE]).registers.pc = 0xFFF
            then (withProgram {} (.cycle 0 []) [0x00, 0xEE]).registers.pc
            else ((withProgram {} (.cycle 0 []) [0x00, 0xEE]).registers.pc + 2) % 4096 } } := by
  have reachable := withProgram_reachable {} (.cycle 0 []) [0x00, 0xEE]
  obtain ⟨running, stops⟩ := stop?_of_return {} (.cycle 0 []) (by decide) (by decide)
    (by decide : ([0x00, 0xEE].getD 0 0 : UInt8).toNat * 256 + ([0x00, 0xEE].getD 1 0 : UInt8).toNat = 0x00EE)
  obtain ⟨fault, _, stepped⟩ := step_of_stop reachable.inRange running stops
  exact ⟨fault, _, stepped, faulting_step_moves_only_pc reachable running stepped⟩

end Machine

end ChipEight
