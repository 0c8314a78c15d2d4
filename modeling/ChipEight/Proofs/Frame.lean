import ChipEight.Proofs.Keeps
import ChipEight.Proofs.Stepping

/-!
The settings of a machine, the program it remembers, its fault and its count of instructions are not
for instructions to change, nor is the size of memory.
-/

namespace ChipEight

open EStateM (Result)

namespace Machine

/-- A property that does not depend on what instructions change. Of memory they do not change the
size. -/
structure Steadfast (P : Machine → Prop) : Prop where
  change : ∀ {m : Machine} registers stack timers screen pad awaitingKey random, P m →
    P { m with registers, stack, timers, screen, pad, awaitingKey, random }
  refill : ∀ {m : Machine} (memory : Memory), memory.size = m.memory.size → P m →
    P { m with memory }

namespace Steadfast

variable {P : Machine → Prop} {m : Machine}

theorem onMemory {α : Type} {x : Attempt Memory α} (steadfast : Steadfast P)
    (sized : ∀ n, Attempt.Keeps (fun memory : Memory => memory.size = n) x) :
    Attempt.Keeps P (onMemory x) := by
  intro m holds
  have size := sized m.memory.size m.memory rfl
  cases outcome : x m.memory with
  | ok a memory =>
    rw [outcome] at size
    rw [Machine.onMemory, Attempt.within_of_ok outcome]
    exact steadfast.refill memory size holds
  | error failure memory =>
    rw [outcome] at size
    rw [Machine.onMemory, Attempt.within_of_error outcome]
    exact steadfast.refill memory size holds

theorem onStack {α : Type} (steadfast : Steadfast P) (x : Attempt CallStack α) :
    Attempt.Keeps P (onStack x) :=
  .frame x fun _ _ holds => steadfast.change _ _ _ _ _ _ _ holds

theorem onScreen {α : Type} (steadfast : Steadfast P)
    (x : Attempt (Framebuffer screenWidth screenHeight) α) : Attempt.Keeps P (onScreen x) :=
  .frame x fun _ _ holds => steadfast.change _ _ _ _ _ _ _ holds

theorem setRegisters (steadfast : Steadfast P) (holds : P m) (registers : Registers) :
    P { m with registers } :=
  steadfast.change _ _ _ _ _ _ _ holds

theorem skipIf (steadfast : Steadfast P) (holds : P m) (condition : Bool) :
    P (m.skipIf condition) := by
  unfold Machine.skipIf
  split
  · exact steadfast.setRegisters holds _
  · exact holds

theorem executeAwaitKey (steadfast : Steadfast P) (holds : P m) (x : Register) :
    P (m.executeAwaitKey x) := by
  simp only [Machine.executeAwaitKey]
  split <;> exact steadfast.change _ _ _ _ _ _ _ holds

theorem executeReturn (steadfast : Steadfast P) : Attempt.Keeps P executeReturn :=
  .bind (steadfast.onStack _) fun _ => .modify fun _ holds => steadfast.setRegisters holds _

theorem executeCall (steadfast : Steadfast P) (address : Nat) :
    Attempt.Keeps P (executeCall address) := by
  intro m holds
  rw [Machine.executeCall, Attempt.get_bind]
  refine Attempt.Keeps.bind (steadfast.onStack _) (fun _ => ?_) m holds
  exact .modify fun _ holds => steadfast.setRegisters holds _

theorem executeDraw (steadfast : Steadfast P) (i : Instruction) :
    Attempt.Keeps P (executeDraw i) := by
  intro m holds
  rw [Machine.executeDraw, Attempt.get_bind]
  rcases m.spritePlace i with ⟨x, y⟩
  refine Attempt.Keeps.bind (.lift _) (fun _ => ?_) m holds
  exact .bind (steadfast.onScreen _) fun _ => .modify fun _ holds => steadfast.setRegisters holds _

theorem storeAtIndex (steadfast : Steadfast P) (values : List Nat) :
    Attempt.Keeps P (storeAtIndex values) := by
  intro m holds
  rw [Machine.storeAtIndex, Attempt.get_bind]
  exact steadfast.onMemory (Memory.Keeps.write · _ _) m holds

theorem executeLoad (steadfast : Steadfast P) (x : Register) :
    Attempt.Keeps P (executeLoad x) := by
  intro m holds
  rw [Machine.executeLoad, Attempt.get_bind]
  have rest (bytes : List UInt8) : P { m with registers := m.registers.load bytes } :=
    steadfast.setRegisters holds _
  cases m.memory.block m.registers.index (x + 1 : Nat) with
  | ok bytes => exact rest bytes
  | error failure => exact holds

theorem execute (steadfast : Steadfast P) (i : Instruction) : Attempt.Keeps P (execute i) := by
  intro m holds
  simp only [Machine.execute, Attempt.get_bind]
  cases i.operation with
  | ret => exact steadfast.executeReturn m holds
  | call => exact steadfast.executeCall _ m holds
  | draw => exact steadfast.executeDraw i m holds
  | decimal => exact steadfast.storeAtIndex _ m holds
  | store => exact steadfast.storeAtIndex _ m holds
  | load => exact steadfast.executeLoad i.x m holds
  | skipEqualByte => exact steadfast.skipIf holds _
  | skipUnequalByte => exact steadfast.skipIf holds _
  | skipEqual => exact steadfast.skipIf holds _
  | skipUnequal => exact steadfast.skipIf holds _
  | skipPressed => exact steadfast.skipIf holds _
  | skipReleased => exact steadfast.skipIf holds _
  | awaitKey => exact steadfast.executeAwaitKey holds _
  | _ => exact steadfast.change _ _ _ _ _ _ _ holds

theorem fetch (steadfast : Steadfast P) : Attempt.Keeps P fetch := by
  intro m holds
  rw [Machine.fetch, Attempt.get_bind]
  cases m.memory.read m.registers.pc with
  | error failure => exact holds
  | ok high =>
    cases m.memory.read (m.registers.pc + 1 : Nat) with
    | error failure => exact holds
    | ok low => exact steadfast.setRegisters holds (m.registers.advance 2)

theorem cycle (steadfast : Steadfast P) : Attempt.Keeps P cycle :=
  .bind steadfast.fetch fun _ => .bind (.lift _) fun i => steadfast.execute i

end Steadfast

def fixedPart (m : Machine) : Settings × Option (List UInt8) × Option Fault × Nat :=
  (m.settings, m.rom, m.fault, m.cycles)

abbrev Fixed (fixed : Settings × Option (List UInt8) × Option Fault × Nat) (m : Machine) : Prop :=
  m.fixedPart = fixed

variable {m : Machine}

theorem fixed_steadfast (fixed : Settings × Option (List UInt8) × Option Fault × Nat) :
    Steadfast (Fixed fixed) where
  change _ _ _ _ _ _ _ same := same
  refill _ _ same := same

theorem cycle_fixedPart (m : Machine) : (Attempt.left (cycle m)).fixedPart = m.fixedPart :=
  (fixed_steadfast _).cycle m rfl

inductive Stepped (m : Machine) : Result Failure Machine (Option Fault) → Prop
  | stopped {fault : Fault} (latched : m.fault = some fault) : Stepped m (.ok (some fault) m)
  | done {after : Machine} (running : m.fault = none) (cycled : cycle m = .ok ⟨⟩ after) :
    Stepped m (.ok none { after with cycles := after.cycles + 1 })
  | stops {failure : Failure} {fault : Fault} {left : Machine} (running : m.fault = none)
    (failed : cycle m = .error failure left) (named : failure.fault? = some fault) :
    Stepped m (.ok (some fault) { left with fault := some fault })
  | escapes {failure : Failure} {left : Machine} (running : m.fault = none)
    (failed : cycle m = .error failure left) : Stepped m (.error failure left)

theorem stepped (m : Machine) : Stepped m m.step := by
  unfold step
  cases status : m.fault with
  | some fault => exact .stopped status
  | none =>
    cases outcome : cycle m with
    | ok answer after => exact .done status outcome
    | error failure left =>
      cases named : failure.fault? with
      | some fault =>
        simp only [named]
        exact .stops status outcome named
      | none =>
        simp only [named]
        exact .escapes status outcome

theorem step_counts {next : Machine} (quiet : m.step = .ok none next) :
    m.fault = none ∧ next.fault = none ∧ next.cycles = m.cycles + 1 := by
  have outcome := m.stepped
  rw [quiet] at outcome
  cases outcome with
  | done running cycled =>
    have kept := m.cycle_fixedPart
    rw [cycled] at kept
    simp only [Attempt.left_ok, fixedPart, Prod.mk.injEq] at kept
    obtain ⟨_, _, fault, cycles⟩ := kept
    exact ⟨running, fault.trans running, congrArg (· + 1) cycles⟩

end Machine

end ChipEight
