import ChipEight.Machine.Execute

/-!
A step fetches the word at the program counter, decodes it and carries it out. What stops the
machine is latched: from then on steps change nothing. `run` takes several steps.
-/

namespace ChipEight

namespace Machine

open EStateM (Result)

def fetch : Attempt Machine Nat := do
  let m ← get
  let pc := m.registers.pc
  let high ← m.memory.read pc
  let low ← m.memory.read (pc + 1 : Nat)
  set { m with registers := m.registers.advance 2 }
  return high.toNat * 256 + low.toNat

def cycle : Attempt Machine Unit := do
  let word ← fetch
  let i ← Instruction.decode word
  execute i

/-- One instruction, unless the machine is stopped. The answer is the fault that it is stopped at,
if it is stopped now. -/
def step (m : Machine) : Result Failure Machine (Option Fault) :=
  match m.fault with
  | some fault => .ok (some fault) m
  | none =>
    match cycle m with
    | .ok _ done => .ok none { done with cycles := done.cycles + 1 }
    | .error failure left =>
      match failure.fault? with
      | some fault => .ok (some fault) { left with fault := some fault }
      | none => .error failure left

def stepNotes (m : Machine) : List Note :=
  match m.fault, m.step with
  | none, .ok (some fault) _ => [.stepFailed fault]
  | none, .ok none done =>
    match fetch m with
    | .ok word fetched =>
      match Instruction.decode word with
      | .ok i => (remark i fetched done).toList
      | .error _ => []
    | .error _ _ => []
  | _, _ => []

/-- Up to `n` steps. They end with the first that finds the machine stopped, whose fault is the
answer. -/
def run : Nat → Machine → Result Failure Machine (Option Fault)
  | 0, m => .ok none m
  | n + 1, m =>
    match m.step with
    | .ok none next => run n next
    | ended => ended

end Machine

end ChipEight
