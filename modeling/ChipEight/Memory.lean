import ChipEight.Attempt

/-!
A flat block of bytes. An access is checked as a whole before anything is read or written, so that a
refused write leaves every byte as it was.
-/

namespace ChipEight

structure Memory where
  cells : Array UInt8

namespace Memory

def zeroed (size : Nat) : Memory :=
  ⟨Array.replicate size 0⟩

def size (m : Memory) : Nat :=
  m.cells.size

def InBounds (m : Memory) (address length : Int) : Prop :=
  0 ≤ address ∧ address + length ≤ m.size

instance (m : Memory) (address length : Int) : Decidable (m.InBounds address length) :=
  inferInstanceAs (Decidable (_ ∧ _))

def outside (address length : Int) : Failure :=
  .outOfBounds (.whole address) (.whole length)

def read (m : Memory) (address : Int) : Except Failure UInt8 :=
  if m.InBounds address 1 then .ok (m.cells.getD address.toNat 0)
  else .error (outside address 1)

/-- The address where a block ends; a negative end counts from the end of memory. -/
def stop (m : Memory) (address length : Int) : Nat :=
  let last := address + length
  if last < 0 then (last + m.size).toNat else last.toNat

def block (m : Memory) (address length : Int) : Except Failure (List UInt8) :=
  if m.InBounds address length then
    .ok (m.cells.extract address.toNat (m.stop address length)).toList
  else .error (outside address length)

def splice (m : Memory) (start : Nat) (bytes : List UInt8) : Memory :=
  ⟨m.cells.extract 0 start ++ bytes.toArray ++ m.cells.extract (start + bytes.length)⟩

theorem size_splice (m : Memory) (start : Nat) (bytes : List UInt8)
    (fits : start + bytes.length ≤ m.size) : (m.splice start bytes).size = m.size := by
  unfold size at fits
  simp only [splice, size, Array.size_append, Array.size_extract, List.size_toArray]
  omega

theorem getD_splice (m : Memory) (start : Nat) (bytes : List UInt8) (a : Nat)
    (fits : start + bytes.length ≤ m.size) :
    (m.splice start bytes).cells.getD a 0 =
      if start ≤ a ∧ a < start + bytes.length then bytes.getD (a - start) 0
      else m.cells.getD a 0 := by
  unfold size at fits
  have before : (m.cells.extract 0 start).size = start := by rw [Array.size_extract]; omega
  have upTo : (m.cells.extract 0 start ++ bytes.toArray).size = start + bytes.length := by
    rw [Array.size_append, before, List.size_toArray]
  simp only [splice, Array.getD_eq_getD_getElem?, List.getD_eq_getElem?_getD]
  by_cases low : a < start
  · rw [if_neg (by omega), Array.getElem?_append_left (by omega),
      Array.getElem?_append_left (by omega), Array.getElem?_extract, if_pos (by omega), Nat.zero_add]
  · by_cases high : a < start + bytes.length
    · rw [if_pos (by omega), Array.getElem?_append_left (by omega),
        Array.getElem?_append_right (by omega), before, List.getElem?_toArray]
    · rw [if_neg (by omega), Array.getElem?_append_right (by omega), upTo, Array.getElem?_extract]
      split
      · congr 2
        omega
      · rw [Array.getElem?_eq_none (by omega)]

def write (address : Int) (bytes : List UInt8) : Attempt Memory Unit := do
  let m ← get
  if m.InBounds address bytes.length then set (m.splice address.toNat bytes)
  else throw (outside address bytes.length)

theorem write_of_inBounds {m : Memory} {address : Int} {bytes : List UInt8}
    (inside : m.InBounds address bytes.length) :
    write address bytes m = .ok ⟨⟩ (m.splice address.toNat bytes) := by
  rw [write, Attempt.bind_of_ok (Attempt.get_apply m), if_pos inside, Attempt.set_apply]

theorem write_of_not_inBounds {m : Memory} {address : Int} {bytes : List UInt8}
    (sticksOut : ¬ m.InBounds address bytes.length) :
    write address bytes m = .error (outside address bytes.length) m := by
  rw [write, Attempt.bind_of_ok (Attempt.get_apply m), if_neg sticksOut, Attempt.throw_apply]

def writeValues (address : Int) (values : List Int) : Attempt Memory Unit :=
  write address (values.map lowByte)

theorem writeValues_of_inBounds {m : Memory} {address : Int} {values : List Int}
    (inside : m.InBounds address values.length) :
    writeValues address values m = .ok ⟨⟩ (m.splice address.toNat (values.map lowByte)) := by
  rw [← List.length_map lowByte] at inside
  exact write_of_inBounds inside

theorem writeValues_of_not_inBounds {m : Memory} {address : Int} {values : List Int}
    (sticksOut : ¬ m.InBounds address values.length) :
    writeValues address values m = .error (outside address values.length) m := by
  rw [← List.length_map lowByte] at sticksOut ⊢
  exact write_of_not_inBounds sticksOut

def byte? (value : Value) : Option UInt8 :=
  match value.toInt? with
  | some n => if 0 ≤ n ∧ n ≤ 255 then some (lowByte n) else none
  | none => none

/-- The bytes of glyph data whose first value stands at `position`; the first value that is no
byte refuses it. -/
def fontBytes (position : Nat) : List Value → Except Failure (List UInt8)
  | [] => .ok []
  | value :: values =>
    match byte? value with
    | none => .error (.invalidFontByte value position)
    | some b => (fontBytes (position + 1) values).map (b :: ·)

def storeFont (data : List Value) : Attempt Memory Unit := do
  write fontStart (← fontBytes 0 data)

def storeRom (program : List UInt8) : Attempt Memory Unit :=
  write romStart program

def extend (address : Nat) (b : UInt8) : List (Nat × List UInt8) → List (Nat × List UInt8)
  | (next, bytes) :: runs =>
    if next = address + 1 then (address, b :: bytes) :: runs
    else (address, [b]) :: (next, bytes) :: runs
  | [] => [(address, [b])]

/-- The bytes of `new` that differ from those of `old`, in maximal runs with their addresses. -/
def changes (old new : Memory) : List (Nat × List UInt8) :=
  if old.cells = new.cells then []
  else
    (List.range new.size).foldr
      (fun address runs =>
        let b := new.cells.getD address 0
        if old.cells.getD address 0 = b then runs else extend address b runs)
      []

def reset (m : Memory) : Memory :=
  zeroed m.size

end Memory

end ChipEight
