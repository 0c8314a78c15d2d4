import ChipEight.Machine.Step

/-! The notes of the steps of a run, and a glance at each state it went through. -/

namespace ChipEight

namespace Machine

open EStateM (Result)

def noteStep (m : Machine) (j : Journal) : Journal :=
  if j.enabled then j.record m.stepNotes else j

def runNoted (n : Nat) (m : Machine) (j : Journal) : Result Failure (Machine × Journal) (Option Fault) :=
  match n with
  | 0 => .ok none (m, j)
  | n + 1 =>
    match m.step with
    | .ok none next => runNoted n next (m.noteStep j)
    | .ok (some fault) left => .ok (some fault) (left, m.noteStep j)
    | .error failure left => .error failure (left, m.noteStep j)

def glance (m : Machine) : String :=
  Hex.zeroFill 3 (Hex.lower m.registers.pc) ++ " "
    ++ Hex.zeroFill 3 (Hex.lower m.registers.index) ++ " " ++ Hex.bytes m.registers.bytes

def trace (n : Nat) (m : Machine) : List String :=
  match n with
  | 0 => []
  | n + 1 =>
    match m.step with
    | .ok none next => next.glance :: trace n next
    | .ok (some _) left | .error _ left => [left.glance]

end Machine

end ChipEight
