import ChipEight.Proofs.Matched
import ChipEight.Proofs.Stepping

/-!
Two machines that differ in nothing but settings, timers, pad and random source do the same as long
as no instruction looks at a difference.
-/

namespace ChipEight

namespace Memory

theorem read_eq_ok {m : Memory} {address : Int} {b : UInt8} (read : m.read address = .ok b) :
    b = m.cells.getD address.toNat 0 := by
  unfold Memory.read at read
  split at read
  · cases read
    rfl
  · cases read

end Memory

namespace Machine

theorem fetch_outcome (m : Machine) :
    (∃ failure, ∀ n : Machine, n.memory = m.memory → n.registers = m.registers →
      fetch n = .error failure n) ∨
    ∀ n : Machine, n.memory = m.memory → n.registers = m.registers →
      fetch n = .ok (m.wordAt m.registers.pc) n.fetched := by
  cases high : m.memory.read m.registers.pc with
  | error failure =>
    refine .inl ⟨failure, fun n memory registers => ?_⟩
    rw [← memory, ← registers] at high
    simp only [fetch, Attempt.get_bind, high]
    rfl
  | ok first =>
    cases low : m.memory.read (m.registers.pc + 1 : Nat) with
    | error failure =>
      refine .inl ⟨failure, fun n memory registers => ?_⟩
      rw [← memory, ← registers] at high low
      simp only [fetch, Attempt.get_bind, high, low]
      rfl
    | ok second =>
      refine .inr fun n memory registers => ?_
      unfold wordAt
      rw [← memory, ← registers] at high low ⊢
      simp only [fetch, Attempt.get_bind, high, low]
      rw [Memory.read_eq_ok high, Memory.read_eq_ok low]
      rfl

def executing? (m : Machine) : Option Instruction :=
  match m.fault with
  | some _ => none
  | none =>
    match fetch m with
    | .ok word _ => (Instruction.decode word).toOption
    | .error _ _ => none

theorem executing?_of_fetch {m fetched : Machine} {word : Nat} {i : Instruction}
    (running : m.fault = none) (gets : fetch m = .ok word fetched)
    (decoded : Instruction.decode word = .ok i) : m.executing? = some i := by
  simp only [executing?, running, gets, decoded]
  rfl

theorem decode_of_executing? {m : Machine} {i : Instruction} (executing : m.executing? = some i) :
    Instruction.decode (m.wordAt m.registers.pc) = .ok i := by
  unfold executing? at executing
  cases running : m.fault with
  | some fault =>
    rw [running] at executing
    cases executing
  | none =>
    rw [running] at executing
    rcases m.fetch_outcome with ⟨failure, fails⟩ | gets
    · rw [fails m rfl rfl] at executing
      cases executing
    · rw [gets m rfl rfl] at executing
      change (Instruction.decode (m.wordAt m.registers.pc)).toOption = some i at executing
      cases decoded : Instruction.decode (m.wordAt m.registers.pc) with
      | error failure =>
        rw [decoded] at executing
        cases executing
      | ok i =>
        rw [decoded] at executing
        cases executing
        rfl

/-- A relation between machines with different surroundings that nothing inside of them can break. -/
structure Twinned (R : Machine → Machine → Prop) : Prop where
  same : ∀ {m n : Machine}, R m n → ∃ settings timers pad random,
    n = { m with settings, timers, pad, random }
  change : ∀ {m n : Machine} memory registers stack screen rom fault awaitingKey cycles, R m n →
    R { m with memory, registers, stack, screen, rom, fault, awaitingKey, cycles }
      { n with memory, registers, stack, screen, rom, fault, awaitingKey, cycles }

def Concur (R : Machine → Machine → Prop) (m n : Machine) (i : Instruction) : Prop :=
  match i.operation with
  | .shiftRight | .shiftLeft => m.shiftOperand i = n.shiftOperand i
  | .jumpPlus => m.registers.get (m.jumpRegister i) = n.registers.get (n.jumpRegister i)
  | .random =>
    m.random.next.1 = n.random.next.1 ∧
      R { m with random := m.random.next.2 } { n with random := n.random.next.2 }
  | .skipPressed | .skipReleased => m.pad.isDown (m.keyOf i.x) = n.pad.isDown (n.keyOf i.x)
  | .getDelay => m.timers.delay = n.timers.delay
  | .awaitKey => R (m.executeAwaitKey i.x) (n.executeAwaitKey i.x)
  | .setDelay =>
    R { m with timers := m.timers.setDelay (m.registers.get i.x) }
      { n with timers := n.timers.setDelay (n.registers.get i.x) }
  | .setSound =>
    R { m with timers := m.timers.setSound (m.registers.get i.x) }
      { n with timers := n.timers.setSound (n.registers.get i.x) }
  | .addIndex => (m.executeAddIndex i.x).registers = (n.executeAddIndex i.x).registers
  | _ => True

namespace Twinned

open Attempt (Matched)

variable {R : Machine → Machine → Prop} {m n : Machine}

theorem shared (twinned : Twinned R) (related : R m n) :
    n.memory = m.memory ∧ n.registers = m.registers ∧ n.fault = m.fault := by
  obtain ⟨_, _, _, _, rfl⟩ := twinned.same related
  exact ⟨rfl, rfl, rfl⟩

theorem setRegisters (twinned : Twinned R) (related : R m n) {r s : Registers} (same : r = s) :
    R { m with registers := r } { n with registers := s } := by
  obtain ⟨_, _, _, _, rfl⟩ := twinned.same related
  subst same
  exact twinned.change _ _ _ _ _ _ _ _ related

theorem skipIf (twinned : Twinned R) (related : R m n) (condition : Bool) :
    R (m.skipIf condition) (n.skipIf condition) := by
  obtain ⟨_, _, _, _, rfl⟩ := twinned.same related
  unfold Machine.skipIf
  split
  · exact twinned.setRegisters related rfl
  · exact related

theorem onStack {α : Type} (twinned : Twinned R) (related : R m n) (x : Attempt CallStack α) :
    Matched R (onStack x m) (onStack x n) := by
  obtain ⟨_, _, _, _, rfl⟩ := twinned.same related
  exact .within x rfl fun _ => twinned.change _ _ _ _ _ _ _ _ related

theorem onScreen {α : Type} (twinned : Twinned R) (related : R m n)
    (x : Attempt (Framebuffer screenWidth screenHeight) α) :
    Matched R (onScreen x m) (onScreen x n) := by
  obtain ⟨_, _, _, _, rfl⟩ := twinned.same related
  exact .within x rfl fun _ => twinned.change _ _ _ _ _ _ _ _ related

theorem onMemory {α : Type} (twinned : Twinned R) (related : R m n) (x : Attempt Memory α) :
    Matched R (onMemory x m) (onMemory x n) := by
  obtain ⟨_, _, _, _, rfl⟩ := twinned.same related
  exact .within x rfl fun _ => twinned.change _ _ _ _ _ _ _ _ related

theorem goto (twinned : Twinned R) (related : R m n) (address : Int) :
    R (m.goto address) (n.goto address) := by
  obtain ⟨_, _, _, _, rfl⟩ := twinned.same related
  exact twinned.setRegisters related rfl

theorem executeReturn (twinned : Twinned R) (related : R m n) :
    Matched R (executeReturn m) (executeReturn n) :=
  .bind (twinned.onStack related _) fun _ _ _ related => .ok (twinned.goto related _)

theorem executeCall (twinned : Twinned R) (related : R m n) (address : Nat) :
    Matched R (executeCall address m) (executeCall address n) := by
  obtain ⟨_, _, _, _, rfl⟩ := twinned.same related
  rw [Machine.executeCall, Attempt.get_bind, Attempt.get_bind]
  exact .bind (twinned.onStack related _) fun _ _ _ related => .ok (twinned.goto related _)

theorem executeDraw (twinned : Twinned R) (related : R m n) (i : Instruction) :
    Matched R (executeDraw i m) (executeDraw i n) := by
  obtain ⟨_, _, _, _, rfl⟩ := twinned.same related
  rw [Machine.executeDraw, Attempt.get_bind, Attempt.get_bind]
  refine .bind (.lift related _) fun sprite _ _ related => ?_
  refine .bind (twinned.onScreen related _) fun collision _ _ related => ?_
  obtain ⟨_, _, _, _, rfl⟩ := twinned.same related
  exact .ok (twinned.setRegisters related rfl)

theorem storeAtIndex (twinned : Twinned R) (related : R m n) (values : List Nat) :
    Matched R (storeAtIndex values m) (storeAtIndex values n) := by
  obtain ⟨_, _, _, _, rfl⟩ := twinned.same related
  rw [Machine.storeAtIndex, Attempt.get_bind, Attempt.get_bind]
  exact twinned.onMemory related _

theorem executeLoad (twinned : Twinned R) (related : R m n) (x : Register) :
    Matched R (executeLoad x m) (executeLoad x n) := by
  obtain ⟨_, _, _, _, rfl⟩ := twinned.same related
  rw [Machine.executeLoad, Attempt.get_bind, Attempt.get_bind]
  cases m.memory.block m.registers.index (x + 1 : Nat) with
  | ok bytes => exact .ok (twinned.setRegisters related rfl)
  | error failure => exact .error related

theorem execute (twinned : Twinned R) (related : R m n) {i : Instruction}
    (concur : Concur R m n i) : Matched R (execute i m) (execute i n) := by
  obtain ⟨_, _, _, _, rfl⟩ := twinned.same related
  simp only [Machine.execute, Attempt.get_bind]
  unfold Concur at concur
  -- what can fail comes first, then skips, then whatever looks at the surroundings or the settings;
  -- all others only set registers
  cases op : i.operation with
  | ret => exact twinned.executeReturn related
  | call => exact twinned.executeCall related _
  | draw => exact twinned.executeDraw related i
  | decimal => exact twinned.storeAtIndex related _
  | store => exact twinned.storeAtIndex related _
  | load => exact twinned.executeLoad related i.x
  | skipEqualByte => exact .ok (twinned.skipIf related _)
  | skipUnequalByte => exact .ok (twinned.skipIf related _)
  | skipEqual => exact .ok (twinned.skipIf related _)
  | skipUnequal => exact .ok (twinned.skipIf related _)
  | skipPressed | skipReleased =>
    simp only [op] at concur ⊢
    rw [← concur]
    exact .ok (twinned.skipIf related _)
  | shiftRight | shiftLeft | jumpPlus | getDelay =>
    simp only [op] at concur ⊢
    rw [← concur]
    exact .ok (twinned.setRegisters related rfl)
  | random =>
    simp only [op] at concur ⊢
    obtain ⟨same, drawn⟩ := concur
    rw [← same]
    exact .ok (twinned.setRegisters drawn rfl)
  | awaitKey | setDelay | setSound =>
    simp only [op] at concur ⊢
    exact .ok concur
  | addIndex =>
    simp only [op] at concur ⊢
    exact .ok (twinned.setRegisters related concur)
  | clear => exact .ok (twinned.change _ _ _ _ _ _ _ _ related)
  | _ => exact .ok (twinned.setRegisters related rfl)

theorem fetch (twinned : Twinned R) (related : R m n) : Matched R (fetch m) (fetch n) := by
  obtain ⟨memory, registers, _⟩ := twinned.shared related
  rcases m.fetch_outcome with ⟨failure, fails⟩ | fetches
  · rw [fails m rfl rfl, fails n memory registers]
    exact .error related
  · rw [fetches m rfl rfl, fetches n memory registers]
    exact .ok (twinned.setRegisters related (congrArg (·.advance 2) registers.symm))

theorem cycle (twinned : Twinned R) (related : R m n) (running : m.fault = none)
    (concur : ∀ i, m.executing? = some i → Concur R m.fetched n.fetched i) :
    Matched R (cycle m) (cycle n) := by
  obtain ⟨memory, registers, _⟩ := twinned.shared related
  unfold Machine.cycle
  rcases m.fetch_outcome with ⟨failure, fails⟩ | fetches
  · rw [Attempt.bind_of_error (fails m rfl rfl), Attempt.bind_of_error (fails n memory registers)]
    exact .error related
  · rw [Attempt.bind_of_ok (fetches m rfl rfl), Attempt.bind_of_ok (fetches n memory registers)]
    have fetched : R m.fetched n.fetched :=
      twinned.setRegisters related (congrArg (·.advance 2) registers.symm)
    cases decoded : Instruction.decode (m.wordAt m.registers.pc) with
    | error failure => exact .error fetched
    | ok i =>
      exact twinned.execute fetched
        (concur i (executing?_of_fetch running (fetches m rfl rfl) decoded))

/-- Twins take the same step if its instruction does not look at a difference. -/
theorem step (twinned : Twinned R) (related : R m n)
    (concur : ∀ i, m.executing? = some i → Concur R m.fetched n.fetched i) :
    Matched R m.step n.step := by
  obtain ⟨_, _, fault⟩ := twinned.shared related
  unfold Machine.step
  rw [fault]
  cases status : m.fault with
  | some fault => exact .ok related
  | none =>
    have cycled := twinned.cycle related status concur
    generalize Machine.cycle m = here, Machine.cycle n = there at cycled ⊢
    cases cycled with
    | ok related =>
      obtain ⟨_, _, _, _, rfl⟩ := twinned.same related
      exact .ok (twinned.change _ _ _ _ _ _ _ _ related)
    | @error failure _ _ related =>
      cases named : failure.fault? with
      | some fault =>
        obtain ⟨_, _, _, _, rfl⟩ := twinned.same related
        simp only [named]
        exact .ok (twinned.change _ _ _ _ _ _ _ _ related)
      | none =>
        simp only [named]
        exact .error related

end Twinned

theorem run_matched {R : Machine → Machine → Prop} {m n : Machine} {count : Nat} (related : R m n)
    (steps : ∀ k < count, ∀ {reached other : Machine}, m.run k = .ok none reached →
      R reached other → Attempt.Matched R reached.step other.step) :
    Attempt.Matched R (m.run count) (n.run count) := by
  induction count generalizing m n with
  | zero => exact .ok related
  | succ count ih =>
    have first := steps 0 count.succ_pos rfl related
    unfold Machine.run
    generalize here : m.step = x, n.step = y at first ⊢
    cases first with
    | error related => exact .error related
    | @ok answer next _ related =>
      cases answer with
      | some fault => exact .ok related
      | none =>
        refine ih related fun k early _ _ ran => steps (k + 1) (Nat.succ_lt_succ early) ?_
        rw [Machine.run, here]
        exact ran

end Machine

end ChipEight
