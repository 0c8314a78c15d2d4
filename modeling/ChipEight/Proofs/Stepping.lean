import ChipEight.Machine.Step
import ChipEight.Proofs.Decoding
import ChipEight.Proofs.Execution

/-!
`stop?` tells why the next step fails, if it fails. What makes it fail is always a fault, so no
failure escapes from it.
-/

namespace ChipEight

open EStateM (Result)

namespace Machine

variable {m : Machine}

def wordAt (m : Machine) (address : Nat) : Nat :=
  (m.memory.cells.getD address 0).toNat * 256 + (m.memory.cells.getD (address + 1) 0).toNat

theorem wordAt_lt (m : Machine) (address : Nat) : m.wordAt address < 0x10000 := by
  have high := (m.memory.cells.getD address 0).toNat_lt
  have low := (m.memory.cells.getD (address + 1) 0).toNat_lt
  unfold wordAt
  omega

theorem wordOf_wordAt (m : Machine) (address : Nat) :
    Instruction.wordOf (m.wordAt address) = m.wordAt address :=
  Instruction.wordOf_natCast (m.wordAt_lt address)

theorem word_of_decode {address : Nat} {i : Instruction}
    (decoded : Instruction.decode (m.wordAt address) = .ok i) : i.word = m.wordAt address :=
  (Instruction.decode_eq_ok_iff.mp decoded).1.trans (m.wordOf_wordAt address)

def fetched (m : Machine) : Machine :=
  { m with registers := m.registers.advance 2 }

theorem InRange.fetched (range : m.InRange) : m.fetched.InRange :=
  { range with registers := range.registers.advance 2 }

theorem fetched_pc (m : Machine) : m.fetched.registers.pc = (m.registers.pc + 2) % memorySize := by
  unfold Machine.fetched Registers.advance Registers.setPc wrapAddress
  simp only [memorySize]
  omega

theorem InRange.fetched_back (range : m.InRange) :
    m.fetched.registers.advance (-2) = m.registers := by
  have valid : m.registers.pc < memorySize := range.registers.pc
  have back : wrapAddress (m.fetched.registers.pc + -2) = m.registers.pc := by
    rw [fetched_pc]
    unfold wrapAddress
    simp only [memorySize] at valid ⊢
    omega
  rw [Registers.advance, Registers.setPc, back]
  rfl

theorem fetched_stack (m : Machine) : m.fetched.stack = m.stack := rfl

abbrev lastAddress : Nat := 0xFFF

theorem fetch_of_lt (range : m.InRange) (inside : m.registers.pc < lastAddress) :
    fetch m = .ok (m.wordAt m.registers.pc) m.fetched := by
  have size : m.memory.size = 4096 := range.memory
  unfold lastAddress at inside
  rw [fetch, Attempt.get_bind]
  simp only [Memory.read_of_lt (show m.registers.pc < m.memory.size by omega),
    Memory.read_of_lt (show m.registers.pc + 1 < m.memory.size by omega)]
  rfl

theorem fetch_of_last (range : m.InRange) (last : m.registers.pc = lastAddress) :
    fetch m = .error (Memory.outside memorySize 1) m := by
  have size := range.memory
  have refused : ¬ m.memory.InBounds (m.registers.pc + 1 : Nat) 1 := by
    rw [show (1 : Int) = (1 : Nat) from rfl, Memory.inBounds_natCast, size, last]
    decide
  rw [fetch, Attempt.get_bind]
  simp only [Memory.read_of_lt (show m.registers.pc < m.memory.size by rw [size, last]; decide)]
  rw [Memory.read, if_neg refused, last]
  rfl

/-- Why the next step fails, if it fails. -/
def stop? (m : Machine) : Option Failure :=
  if m.registers.pc = lastAddress then some (Memory.outside memorySize 1)
  else
    match Instruction.decode (m.wordAt m.registers.pc) with
    | .error failure => some failure
    | .ok i => m.fetched.refusal? i

theorem stop?_of_last (last : m.registers.pc = lastAddress) :
    m.stop? = some (Memory.outside memorySize 1) :=
  if_pos last

theorem stop?_of_error (before : m.registers.pc ≠ lastAddress) {failure : Failure}
    (refused : Instruction.decode (m.wordAt m.registers.pc) = .error failure) :
    m.stop? = some failure := by
  rw [stop?, if_neg before, refused]

theorem stop?_of_decode (before : m.registers.pc ≠ lastAddress) {i : Instruction}
    (decoded : Instruction.decode (m.wordAt m.registers.pc) = .ok i) :
    m.stop? = m.fetched.refusal? i := by
  rw [stop?, if_neg before, decoded]

def stalled (m : Machine) : Machine :=
  if m.registers.pc = lastAddress then m else m.fetched

theorem pc_lt_last (range : m.InRange) (before : m.registers.pc ≠ lastAddress) :
    m.registers.pc < lastAddress := by
  have valid : m.registers.pc < 4096 := range.registers.pc
  unfold lastAddress at before ⊢
  omega

theorem cycle_of_decode (range : m.InRange) (before : m.registers.pc ≠ lastAddress)
    {i : Instruction} (decoded : Instruction.decode (m.wordAt m.registers.pc) = .ok i) :
    cycle m = execute i m.fetched := by
  rw [cycle, Attempt.bind_of_ok (fetch_of_lt range (pc_lt_last range before)), decoded]
  rfl

theorem cycle_of_stop {failure : Failure} (range : m.InRange) (stops : m.stop? = some failure) :
    cycle m = .error failure m.stalled := by
  unfold stalled
  by_cases last : m.registers.pc = lastAddress
  · rw [stop?_of_last last, Option.some.injEq] at stops
    rw [cycle, Attempt.bind_of_error (fetch_of_last range last), if_pos last, stops]
  · rw [if_neg last]
    cases decoded : Instruction.decode (m.wordAt m.registers.pc) with
    | error refusal =>
      rw [stop?_of_error last decoded, Option.some.injEq] at stops
      rw [cycle, Attempt.bind_of_ok (fetch_of_lt range (pc_lt_last range last)), decoded, stops]
      rfl
    | ok i =>
      rw [stop?_of_decode last decoded] at stops
      rw [cycle_of_decode range last decoded, execute_of_refused range.fetched stops]

theorem cycle_of_go (range : m.InRange) (goes : m.stop? = none) :
    ∃ i done, Instruction.decode (m.wordAt m.registers.pc) = .ok i ∧
      execute i m.fetched = .ok ⟨⟩ done ∧ cycle m = .ok ⟨⟩ done ∧ done.InRange := by
  by_cases last : m.registers.pc = lastAddress
  · rw [stop?_of_last last] at goes
    cases goes
  · cases decoded : Instruction.decode (m.wordAt m.registers.pc) with
    | error refusal =>
      rw [stop?_of_error last decoded] at goes
      cases goes
    | ok i =>
      rw [stop?_of_decode last decoded] at goes
      obtain ⟨done, executed, kept⟩ := execute_of_accepted range.fetched goes
      exact ⟨i, done, rfl, executed, (cycle_of_decode range last decoded).trans executed, kept⟩

theorem refusal?_isFault {i : Instruction} {failure : Failure} (refused : m.refusal? i = some failure) :
    ∃ fault, failure.fault? = some fault := by
  have block : ∀ {length : Nat}, m.blockRefusal? length = some failure →
      ∃ fault, failure.fault? = some fault := by
    intro length stopped
    obtain ⟨_, rfl⟩ := blockRefusal?_eq_some.mp stopped
    exact ⟨_, rfl⟩
  unfold refusal? at refused
  cases op : i.operation with
  | ret =>
    simp only [op, Option.ite_none_right_eq_some, Option.some.injEq] at refused
    obtain ⟨_, rfl⟩ := refused
    exact ⟨_, rfl⟩
  | call =>
    simp only [op, Option.ite_none_right_eq_some, Option.some.injEq] at refused
    obtain ⟨_, rfl⟩ := refused
    exact ⟨_, rfl⟩
  | draw => exact block (by simpa only [op] using refused)
  | decimal => exact block (by simpa only [op] using refused)
  | store => exact block (by simpa only [op] using refused)
  | load => exact block (by simpa only [op] using refused)
  | _ => simp only [op, reduceCtorEq] at refused

theorem decode_error_isFault {opcode : Int} {failure : Failure}
    (refused : Instruction.decode opcode = .error failure) :
    ∃ fault, failure.fault? = some fault := by
  unfold Instruction.decode at refused
  dsimp only at refused
  split at refused
  · cases refused
  · cases refused
    exact ⟨_, rfl⟩

theorem stop?_isFault {failure : Failure} (stops : m.stop? = some failure) :
    ∃ fault, failure.fault? = some fault := by
  by_cases last : m.registers.pc = lastAddress
  · rw [stop?_of_last last] at stops
    cases stops
    exact ⟨_, rfl⟩
  · cases decoded : Instruction.decode (m.wordAt m.registers.pc) with
    | error refusal =>
      rw [stop?_of_error last decoded] at stops
      cases stops
      exact decode_error_isFault decoded
    | ok i =>
      rw [stop?_of_decode last decoded] at stops
      exact refusal?_isFault stops

theorem step_of_stop {failure : Failure} (range : m.InRange) (running : m.fault = none)
    (stops : m.stop? = some failure) :
    ∃ fault, failure.fault? = some fault ∧
      m.step = .ok (some fault) { m.stalled with fault := some fault } := by
  obtain ⟨fault, named⟩ := stop?_isFault stops
  refine ⟨fault, named, ?_⟩
  simp only [step, running, cycle_of_stop range stops, named]

theorem step_of_go (range : m.InRange) (running : m.fault = none) (goes : m.stop? = none) :
    ∃ i done, Instruction.decode (m.wordAt m.registers.pc) = .ok i ∧
      execute i m.fetched = .ok ⟨⟩ done ∧
      m.step = .ok none { done with cycles := done.cycles + 1 } ∧ done.InRange := by
  obtain ⟨i, done, decoded, executed, cycled, kept⟩ := cycle_of_go range goes
  refine ⟨i, done, decoded, executed, ?_, kept⟩
  simp only [step, running, cycled]

theorem step_of_fault {fault : Fault} (stopped : m.fault = some fault) :
    m.step = .ok (some fault) m := by
  simp only [step, stopped]

theorem InRange.stalled (range : m.InRange) : m.stalled.InRange := by
  unfold Machine.stalled
  split
  · exact range
  · exact range.fetched

theorem InRange.step (range : m.InRange) :
    ∃ answer after, m.step = .ok answer after ∧ after.InRange := by
  cases status : m.fault with
  | some fault => exact ⟨_, m, step_of_fault status, range⟩
  | none =>
    cases outcome : m.stop? with
    | some failure =>
      obtain ⟨fault, _, stepped⟩ := step_of_stop range status outcome
      exact ⟨_, _, stepped, { range.stalled with }⟩
    | none =>
      obtain ⟨_, done, _, _, stepped, kept⟩ := step_of_go range status outcome
      exact ⟨_, _, stepped, { kept with }⟩

theorem InRange.run (range : m.InRange) (n : Nat) :
    ∃ answer after, m.run n = .ok answer after ∧ after.InRange := by
  induction n generalizing m with
  | zero => exact ⟨none, m, rfl, range⟩
  | succ n ih =>
    obtain ⟨answer, after, stepped, kept⟩ := range.step
    cases answer with
    | none =>
      obtain ⟨answer, last, ran, kept⟩ := ih kept
      exact ⟨answer, last, by rw [Machine.run, stepped]; exact ran, kept⟩
    | some fault => exact ⟨some fault, after, by rw [Machine.run, stepped], kept⟩

end Machine

end ChipEight
