import ChipEight.Attempt

/-!
Sixteen registers, of which the last doubles as the flag, an index and a program counter, and the
return addresses of the calls in progress.
-/

namespace ChipEight

abbrev Register := Fin registerCount

def flagRegister : Register := ⟨15, by decide⟩

structure Registers where
  v : Vector Nat registerCount := Vector.replicate registerCount 0
  index : Nat := 0
  pc : Nat := romStart
  deriving DecidableEq, Repr

namespace Registers

def get (r : Registers) (x : Register) : Nat :=
  r.v[x]

def set (r : Registers) (x : Register) (n : Int) : Registers :=
  { r with v := r.v.set x (wrapByte n) }

theorem get_set (r : Registers) (x y : Register) (n : Int) :
    (r.set x n).get y = if y = x then wrapByte n else r.get y := by
  unfold set get
  by_cases same : y = x
  · subst same
    simp
  · have differ : x.val ≠ y.val := fun h => same (Fin.ext h.symm)
    simp [differ, same]

def setFlag (r : Registers) (flag : Bool) : Registers :=
  r.set flagRegister (if flag then 1 else 0)

def setIndex (r : Registers) (n : Int) : Registers :=
  { r with index := wrapAddress n }

def setPc (r : Registers) (n : Int) : Registers :=
  { r with pc := wrapAddress n }

def advance (r : Registers) (amount : Int) : Registers :=
  r.setPc (r.pc + amount)

def number? (x : Int) : Except Failure Register :=
  if h : 0 ≤ x ∧ x < registerCount then .ok ⟨x.toNat, by omega⟩
  else .error (.noRegister (.whole x))

def bytes (r : Registers) : List UInt8 :=
  r.v.toList.map fun n : Nat => lowByte n

def upTo (r : Registers) (x : Register) : List Nat :=
  r.v.toList.take (x + 1)

def loadFrom (k : Nat) (r : Registers) : List UInt8 → Registers
  | [] => r
  | b :: bytes =>
    loadFrom (k + 1) (if fits : k < registerCount then r.set ⟨k, fits⟩ b.toNat else r) bytes

def load (r : Registers) (bytes : List UInt8) : Registers :=
  r.loadFrom 0 bytes

end Registers

/-- Places for return addresses. The lowest `depth` of them hold those of the calls in progress, the
others what earlier calls left there. -/
structure CallStack where
  slots : Vector UInt16 stackDepth := Vector.replicate stackDepth 0
  depth : Nat := 0
  deriving DecidableEq, Repr

namespace CallStack

def addresses (s : CallStack) : List Nat :=
  (s.slots.toList.take s.depth).map (·.toNat)

def grow (s : CallStack) (address : Nat) : CallStack :=
  { slots := s.slots.setIfInBounds s.depth (UInt16.ofNat address), depth := s.depth + 1 }

def shrink (s : CallStack) : CallStack :=
  { s with depth := s.depth - 1 }

def push (address : Int) : Attempt CallStack Unit := do
  let s ← get
  if s.depth < stackDepth then
    if 0 ≤ address ∧ address ≤ 0xFFFF then set (s.grow address.toNat)
    else throw (.noRoom 16 address)
  else throw (.stackOverflow (.whole address))

def pop : Attempt CallStack Nat := do
  let s ← get
  if s.depth = 0 then throw .stackUnderflow
  else
    set s.shrink
    match s.slots[s.depth - 1]? with
    | some address => return address.toNat
    | none => throw (.noCell (s.depth - 1 : Nat) stackDepth)

def peek (s : CallStack) : Option Nat :=
  if s.depth = 0 then none else s.slots[s.depth - 1]?.map (·.toNat)

end CallStack

end ChipEight
