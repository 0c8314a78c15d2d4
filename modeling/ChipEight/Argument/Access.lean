import ChipEight.Argument.Arithmetic
import ChipEight.HexPad
import ChipEight.Memory
import ChipEight.Registers

/-!
Memory, registers, stack and pad, asked with arguments of any kind. The first argument that cannot
be used is refused; integers lead to the operation on integers.
-/

namespace ChipEight

def zeroBytes (count : Int) : Except Failure (List UInt8) :=
  if !fitsWord count then .error .endless
  else if count < 0 then .error .negativeCount
  else if roomLimit < count.toNat then .error .noMemory
  else .ok (List.replicate count.toNat 0)

def repeatBytes (bytes : List UInt8) (times : Value) : Except Failure (List UInt8) :=
  match times.toInt? with
  | some n => do Value.repeated bytes (← Value.repetitions .endlessBytes 1 bytes.length n)
  | none => .error (.operands "*" (.ofBytes bytes) times)

def Value.asByte (outOfRange : Failure) (v : Value) : Except Failure UInt8 := do
  let n ← v.asInteger .count
  if 0 ≤ n ∧ n ≤ 0xFF then return lowByte n else throw outOfRange

/-! ## Memory -/

/-- A memory together with the size that it was asked for. Nothing but a whole number bounds an
address, whatever the memory holds. -/
structure Bank where
  memory : Memory := .zeroed memorySize
  size : Value := .whole memorySize

namespace Bank

def content : Value → Except Failure (List UInt8)
  | .list vs => vs.mapM (·.asByte .notByte)
  | .record fields => fields.mapM fun (name, _) => (Value.text name).asByte .notByte
  | v =>
    match v.toInt? with
    | some n => zeroBytes n
    | none => .error (.unfit v (.material "bytearray"))

def ofSize (size : Value) : Except Failure Bank :=
  (content size).map fun bytes => { memory := ⟨bytes.toArray⟩, size }

def reset (b : Bank) : Bank :=
  ((ofSize b.size).toOption).getD b

def outside (address length : Value) : Failure :=
  if address.toInt?.isSome then .outOfBounds address length else .noFormat 'X' address

/-- The block that two values stand for. Numbers with a fraction are compared like all others, but
in the end no block has them. -/
def blockOf (b : Bank) (address length : Value) (purpose : Use) : Except Failure (Int × Int) := do
  if ← address.compare .below (.whole 0) then throw (outside address length)
  if ← (← address.plus length).compare .above b.size then throw (outside address length)
  match address.toInt?, length.toInt? with
  | some a, some n => return (a, n)
  | _, _ => throw (.unfit address purpose)

def read (b : Bank) (address : Value) : Except Failure UInt8 := do
  b.memory.read (← b.blockOf address (.whole 1) (.index "bytearray")).1

def block (b : Bank) (address length : Value) : Except Failure (List UInt8) := do
  let (a, n) ← b.blockOf address length .bound
  b.memory.block a n

def write (address data : Value) : Attempt Bank Unit := do
  let items ← data.items .iteration
  let numbers ← items.mapM (m := Except Failure) (·.asBits "&")
  let (a, _) ← (← get).blockOf address (.whole numbers.length) .bound
  Attempt.within Bank.memory (fun b memory => { b with memory }) (Memory.writeValues a numbers)

def storeFont (data : Value) : Attempt Bank Unit := do
  let _ ← Memory.fontBytes 0 (← data.items .iteration)
  write (.whole fontStart) data

end Bank

/-- The bytes of a program given as a value: the items of a list, of which one that is no byte
refuses all of them, or as many zero bytes as a number says. -/
def Rom.ofValue : Value → Except Failure (List UInt8)
  | .list vs => vs.mapM (·.asByte .notBytes)
  | v =>
    match v.toInt? with
    | some n => zeroBytes n
    | none => .error (.unfit v (.material "bytes"))

/-! ## Registers and the call stack -/

namespace Registers

def checkNumber (x : Value) : Except Failure Unit := do
  let notBelow ← Value.compare .atMost (.whole 0) x
  let below ← x.compare .below (.whole registerCount)
  if notBelow ∧ below then return () else throw (.noRegister (x.toNumber?.getD (.whole 0)))

def numberOf (x : Value) : Except Failure Register := do
  number? (← x.asInteger (.index "list"))

def getAt (r : Registers) (x : Value) : Except Failure Nat := do
  checkNumber x
  return r.get (← numberOf x)

def setAt (r : Registers) (x value : Value) : Except Failure Registers := do
  checkNumber x
  let n ← value.integer
  return r.set (← numberOf x) n

/-- The registers with the program counter moved by an amount, which may have a fraction; it is the
sum that loses it. -/
def advanceBy (r : Registers) (amount : Value) : Except Failure Registers := do
  return r.setPc (← (← (Value.whole r.pc).plus amount).integer)

end Registers

/-- The stack with one more address. A full stack does not look at it. -/
def CallStack.pushValue (address : Value) : Attempt CallStack Unit := do
  if (← get).depth < stackDepth then push (← address.integer) else throw (.stackOverflow address)

/-! ## The pad -/

def Key.ofValue (v : Value) (operator : String := "&") : Except Failure Key :=
  (v.asBits operator).map Key.ofInt

end ChipEight
