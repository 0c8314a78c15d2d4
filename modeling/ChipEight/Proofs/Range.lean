import ChipEight.Machine.Execute
import ChipEight.Proofs.CallStack
import ChipEight.Proofs.Sprites

/-!
What the parts of a machine keep whatever is done to them: their sizes, and the ranges of all that
they hold.
-/

namespace ChipEight

namespace Memory

theorem size_zeroed (n : Nat) : (zeroed n).size = n :=
  Array.size_replicate

theorem Keeps.write (n : Nat) (address : Int) (bytes : List UInt8) :
    Attempt.Keeps (fun m : Memory => m.size = n) (write address bytes) := by
  intro m size
  by_cases inside : m.InBounds address bytes.length
  · rw [write_of_inBounds inside, Attempt.left_ok, size_splice _ _ _ ?_, size]
    unfold InBounds at inside
    omega
  · rw [write_of_not_inBounds inside, Attempt.left_error, size]

theorem Keeps.storeFont (n : Nat) (data : List Value) :
    Attempt.Keeps (fun m : Memory => m.size = n) (storeFont data) :=
  .bind (.lift _) fun bytes => Keeps.write n fontStart bytes

end Memory

theorem Registers.get_setFlag (r : Registers) (flag : Bool) :
    (r.setFlag flag).get flagRegister = if flag then 1 else 0 := by
  rw [setFlag, get_set, if_pos rfl]
  cases flag <;> rfl

structure Registers.InRange (r : Registers) : Prop where
  bytes : ∀ x, r.get x ≤ 255
  index : r.index < memorySize
  pc : r.pc < memorySize

namespace Registers.InRange

variable {r : Registers}

theorem initial : InRange {} where
  bytes := by decide
  index := by decide
  pc := by decide

theorem set (range : r.InRange) (x : Register) (n : Int) : (r.set x n).InRange := by
  refine ⟨fun y => ?_, range.index, range.pc⟩
  rw [get_set]
  split
  · exact wrapByte_le n
  · exact range.bytes y

theorem setFlag (range : r.InRange) (flag : Bool) : (r.setFlag flag).InRange :=
  range.set _ _

theorem loadFrom (range : r.InRange) (k : Nat) (bytes : List UInt8) :
    (r.loadFrom k bytes).InRange := by
  induction bytes generalizing k r with
  | nil => exact range
  | cons b bytes ih =>
    rw [Registers.loadFrom]
    apply ih
    split
    · exact range.set _ _
    · exact range

theorem load (range : r.InRange) (bytes : List UInt8) : (r.load bytes).InRange :=
  range.loadFrom 0 bytes

theorem setIndex (range : r.InRange) (n : Int) : (r.setIndex n).InRange :=
  { range with index := wrapAddress_lt n }

theorem setPc (range : r.InRange) (n : Int) : (r.setPc n).InRange :=
  { range with pc := wrapAddress_lt n }

theorem advance (range : r.InRange) (amount : Int) : (r.advance amount).InRange :=
  range.setPc _

end Registers.InRange

structure CallStack.InRange (s : CallStack) : Prop where
  depth : s.depth ≤ stackDepth
  addresses : ∀ address ∈ s.addresses, address < memorySize

namespace CallStack.InRange

variable {s : CallStack}

theorem empty : InRange {} := by
  refine ⟨Nat.zero_le _, ?_⟩
  rw [addresses_eq_nil (s := {}) rfl]
  intro address member
  cases member

theorem grow (range : s.InRange) {address : Nat} (room : s.depth < stackDepth)
    (valid : address < memorySize) : (s.grow address).InRange := by
  refine ⟨room, ?_⟩
  rw [addresses_grow room (Nat.le_trans (Nat.le_of_lt valid) (by decide))]
  intro entry member
  rcases List.mem_append.mp member with earlier | latest
  · exact range.addresses entry earlier
  · rw [List.mem_singleton.mp latest]
    exact valid

theorem shrink (range : s.InRange) (calls : 0 < s.depth) : s.shrink.InRange := by
  obtain ⟨address, _, listed⟩ := addresses_shrink calls range.depth
  refine ⟨Nat.le_trans (Nat.sub_le _ _) range.depth, fun entry member => range.addresses entry ?_⟩
  rw [listed]
  exact List.mem_append_left _ member

end CallStack.InRange

structure Countdown.InRange (c : Countdown) : Prop where
  delay : c.delay ≤ 255
  sound : c.sound ≤ 255

namespace Countdown.InRange

variable {c : Countdown}

theorem zero : InRange {} where
  delay := by decide
  sound := by decide

theorem setDelay (range : c.InRange) (n : Int) : (c.setDelay n).InRange :=
  { range with delay := clamp_le n }

theorem setSound (range : c.InRange) (n : Int) : (c.setSound n).InRange :=
  { range with sound := clamp_le n }

theorem tick (range : c.InRange) : c.tick.InRange where
  delay := Nat.le_trans (Nat.sub_le _ _) range.delay
  sound := Nat.le_trans (Nat.sub_le _ _) range.sound

end Countdown.InRange

structure HexPad.InRange (p : HexPad) : Prop where
  cells : ∀ k, p.cell k = 0 ∨ p.cell k = 1
  released : ∀ key ∈ p.released, key < keyCount

namespace HexPad.InRange

variable {p : HexPad}

theorem allUp : InRange {} where
  cells := by decide
  released := by
    intro key none
    cases none

theorem press (range : p.InRange) (k : Key) : (p.press k).InRange := by
  refine { range with cells := fun j => ?_ }
  simp only [HexPad.press, cell, Fin.getElem_fin, Vector.getElem_set]
  split
  · exact .inr rfl
  · exact range.cells j

theorem release (range : p.InRange) (k : Key) : (p.release k).InRange where
  cells j := by
    simp only [HexPad.release, cell, Fin.getElem_fin, Vector.getElem_set]
    split
    · exact .inl rfl
    · exact range.cells j
  released key recorded := by
    simp only [HexPad.release] at recorded
    split at recorded
    · obtain rfl := Option.mem_some.mp recorded
      exact k.isLt
    · exact range.released key recorded

theorem beginWait (range : p.InRange) : p.beginWait.InRange where
  cells := range.cells
  released := by
    intro key none
    cases none

end HexPad.InRange

namespace Machine

theorem registerCount_pos : 0 < registerCount := by decide

structure InRange (m : Machine) : Prop where
  memory : m.memory.size = memorySize
  registers : m.registers.InRange
  stack : m.stack.InRange
  timers : m.timers.InRange
  screen : m.screen.InRange
  pad : m.pad.InRange

namespace InRange

variable {m : Machine}

theorem setRegister (range : m.InRange) (x : Register) (n : Int) : (m.setRegister x n).InRange :=
  { range with registers := range.registers.set x n }

theorem setResult (range : m.InRange) (x : Register) (n : Int) (flag : Bool) :
    (m.setResult x n flag).InRange :=
  { range with registers := (range.registers.set x n).setFlag flag }

theorem setFlag (range : m.InRange) (flag : Bool) : (m.setFlag flag).InRange :=
  { range with registers := range.registers.setFlag flag }

theorem goto (range : m.InRange) (address : Int) : (m.goto address).InRange :=
  { range with registers := range.registers.setPc address }

theorem skipIf (range : m.InRange) (condition : Bool) : (m.skipIf condition).InRange := by
  unfold Machine.skipIf
  split
  · exact { range with registers := range.registers.advance 2 }
  · exact range

theorem setIndex (range : m.InRange) (n : Int) :
    { m with registers := m.registers.setIndex n }.InRange :=
  { range with registers := range.registers.setIndex n }

theorem setScreen (range : m.InRange) {screen : Framebuffer screenWidth screenHeight}
    (binary : screen.InRange) : { m with screen }.InRange :=
  { range with screen := binary }

theorem executeAwaitKey (range : m.InRange) (x : Register) : (m.executeAwaitKey x).InRange := by
  have waiting : (if m.awaitingKey then m.pad else m.pad.beginWait).InRange := by
    split
    · exact range.pad
    · exact range.pad.beginWait
  simp only [Machine.executeAwaitKey]
  split
  · exact { range with registers := range.registers.advance (-2), pad := waiting }
  · exact { range with registers := range.registers.set x _, pad := waiting.beginWait }

theorem executeAddIndex (range : m.InRange) (x : Register) : (m.executeAddIndex x).InRange := by
  refine { range with registers := ?_ }
  simp only [Machine.executeAddIndex]
  split
  · exact (range.registers.setIndex _).setFlag _
  · exact range.registers.setIndex _

theorem splice (range : m.InRange) {start : Nat} {bytes : List UInt8}
    (fits : start + bytes.length ≤ m.memory.size) :
    { m with memory := m.memory.splice start bytes }.InRange :=
  { range with memory := (Memory.size_splice _ _ _ fits).trans range.memory }

end InRange

end Machine

end ChipEight
