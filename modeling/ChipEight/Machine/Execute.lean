import ChipEight.Framebuffer.Sprite
import ChipEight.Instruction.Decode
import ChipEight.Machine

/-!
`Machine.execute` carries out one decoded instruction on a machine whose program counter stands
behind it. Where the flag is a result it is written last.
-/

namespace ChipEight

namespace Machine

def setRegister (m : Machine) (x : Register) (n : Int) : Machine :=
  { m with registers := m.registers.set x n }

def setResult (m : Machine) (x : Register) (n : Int) (flag : Bool) : Machine :=
  { m with registers := (m.registers.set x n).setFlag flag }

def goto (m : Machine) (address : Int) : Machine :=
  { m with registers := m.registers.setPc address }

def skipIf (m : Machine) (condition : Bool) : Machine :=
  if condition then { m with registers := m.registers.advance 2 } else m

def keyOf (m : Machine) (x : Register) : Key :=
  Key.ofInt (m.registers.get x)

def shiftOperand (m : Machine) (i : Instruction) : Nat :=
  m.registers.get (if m.settings.implementation.shiftUsesVy then i.y else i.x)

def jumpRegister (m : Machine) (i : Instruction) : Register :=
  if m.settings.implementation.jumpUsesVx then i.x else ⟨0, by decide⟩

def executeReturn : Attempt Machine Unit := do
  let address ← onStack CallStack.pop
  modify (·.goto address)

def executeCall (address : Nat) : Attempt Machine Unit := do
  onStack (CallStack.push (← get).registers.pc)
  modify (·.goto address)

def spritePlace (m : Machine) (i : Instruction) : Nat × Nat :=
  (m.registers.get i.x % screenWidth, m.registers.get i.y % screenHeight)

def setFlag (m : Machine) (flag : Bool) : Machine :=
  { m with registers := m.registers.setFlag flag }

def executeDraw (i : Instruction) : Attempt Machine Unit := do
  let m ← get
  let (x, y) := m.spritePlace i
  let sprite ← m.memory.block m.registers.index i.n
  let collision ← onScreen (Framebuffer.draw x y sprite)
  modify (·.setFlag collision)

/-- Takes a key released since the wait began. Without one the program counter steps back, so
that the instruction runs again. -/
def executeAwaitKey (m : Machine) (x : Register) : Machine :=
  let pad := if m.awaitingKey then m.pad else m.pad.beginWait
  match pad.released with
  | none => { m with pad, awaitingKey := true, registers := m.registers.advance (-2) }
  | some key =>
    { m with
      pad := pad.beginWait
      awaitingKey := false
      registers := m.registers.set x key }

/-- Adds register `x` to the index. A sum past the end of memory leaves the index at one. -/
def executeAddIndex (m : Machine) (x : Register) : Machine :=
  let sum := m.registers.index + m.registers.get x
  let overflow : Bool := memorySize ≤ sum
  let registers := m.registers.setIndex (if overflow then 1 else sum)
  { m with
    registers :=
      if m.settings.implementation.indexOverflowSetsVf then registers.setFlag overflow
      else registers }

def storeAtIndex (values : List Nat) : Attempt Machine Unit := do
  onMemory (Memory.writeValues (← get).registers.index (values.map fun n : Nat => (n : Int)))

def decimalDigits (n : Nat) : List Nat :=
  [n / 100, n / 10 % 10, n % 10]

def executeLoad (x : Register) : Attempt Machine Unit := do
  let m ← get
  let bytes ← m.memory.block m.registers.index (x + 1 : Nat)
  set { m with registers := m.registers.load bytes }

def execute (i : Instruction) : Attempt Machine Unit := do
  let m ← get
  let vx := m.registers.get i.x
  let vy := m.registers.get i.y
  match i.operation with
  | .clear => set { m with screen := m.screen.clear }
  | .ret => executeReturn
  | .jump => set (m.goto i.nnn)
  | .call => executeCall i.nnn
  | .skipEqualByte => set (m.skipIf (vx = i.kk))
  | .skipUnequalByte => set (m.skipIf (vx ≠ i.kk))
  | .skipEqual => set (m.skipIf (vx = vy))
  | .setByte => set (m.setRegister i.x i.kk)
  | .addByte => set (m.setRegister i.x (vx + i.kk))
  | .copy => set (m.setRegister i.x vy)
  | .or => set (m.setRegister i.x (vx ||| vy : Nat))
  | .and => set (m.setRegister i.x (vx &&& vy : Nat))
  | .xor => set (m.setRegister i.x (vx ^^^ vy : Nat))
  | .add => set (m.setResult i.x (vx + vy) (255 < vx + vy))
  | .subtract => set (m.setResult i.x (vx - vy : Int) (vy ≤ vx))
  | .shiftRight =>
    let operand := m.shiftOperand i
    set (m.setResult i.x (operand / 2) (operand % 2 = 1))
  | .subtractFrom => set (m.setResult i.x (vy - vx : Int) (vx ≤ vy))
  | .shiftLeft =>
    let operand := m.shiftOperand i
    set (m.setResult i.x (operand * 2) (operand / 128 % 2 = 1))
  | .skipUnequal => set (m.skipIf (vx ≠ vy))
  | .setIndex => set { m with registers := m.registers.setIndex i.nnn }
  | .jumpPlus => set (m.goto (i.nnn + m.registers.get (m.jumpRegister i)))
  | .random =>
    let (b, random) := m.random.next
    set { m with random, registers := m.registers.set i.x (b.toNat &&& i.kk : Nat) }
  | .draw => executeDraw i
  | .skipPressed => set (m.skipIf (m.pad.isDown (m.keyOf i.x)))
  | .skipReleased => set (m.skipIf (!m.pad.isDown (m.keyOf i.x)))
  | .getDelay => set (m.setRegister i.x m.timers.delay)
  | .awaitKey => set (m.executeAwaitKey i.x)
  | .setDelay => set { m with timers := m.timers.setDelay vx }
  | .setSound => set { m with timers := m.timers.setSound vx }
  | .addIndex => set (m.executeAddIndex i.x)
  | .glyph =>
    set { m with registers := m.registers.setIndex (fontStart + vx % 16 * glyphSize) }
  | .decimal => storeAtIndex (decimalDigits vx)
  | .store => storeAtIndex (m.registers.upTo i.x)
  | .load => executeLoad i.x

def remark (i : Instruction) (before after : Machine) : Option Note :=
  match i.operation with
  | .clear => some .displayCleared
  | .ret => before.stack.peek.map .returned
  | .jump => some (.jumped i.nnn)
  | .call => some (.called i.nnn)
  | .setByte => some (.byteSet i.x i.kk)
  | .addByte => some (.byteAdded i.x i.kk (after.registers.get i.x))
  | .add =>
    some (.registersAdded i.x i.y (after.registers.get i.x) (after.registers.get flagRegister))
  | .setIndex => some (.indexSet i.nnn)
  | .jumpPlus => some (.jumpedPlus (before.jumpRegister i) i.nnn after.registers.pc)
  | .draw =>
    let (x, y) := before.spritePlace i
    some (.spriteDrawn x y (after.registers.get flagRegister))
  | .awaitKey =>
    if after.awaitingKey then none
    else some (.keyTaken (after.registers.get i.x) i.x)
  | _ => none

end Machine

end ChipEight
