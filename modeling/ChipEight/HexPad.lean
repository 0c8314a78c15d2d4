import ChipEight.Layout

/-!
Sixteen keys, each up or down, and the key released last. Waiting for a key completes on a
release, so the record is cleared when a wait begins and when it is taken.
-/

namespace ChipEight

abbrev Key := Fin keyCount

def Key.ofInt (n : Int) : Key :=
  ⟨(n % keyCount).toNat, by unfold keyCount; omega⟩

structure HexPad where
  cells : Vector UInt8 keyCount := Vector.replicate keyCount 0
  released : Option Nat := none
  deriving DecidableEq, Repr

namespace HexPad

def cell (p : HexPad) (k : Key) : UInt8 :=
  p.cells[k]

def isDown (p : HexPad) (k : Key) : Bool :=
  p.cell k ≠ 0

def press (p : HexPad) (k : Key) : HexPad :=
  { p with cells := p.cells.set k 1 }

/-- The pad with `k` up. Only a key that was down counts as released. -/
def release (p : HexPad) (k : Key) : HexPad :=
  { cells := p.cells.set k 0, released := if p.isDown k then some k else p.released }

theorem isDown_press (p : HexPad) (k j : Key) :
    (p.press k).isDown j = (j = k || p.isDown j) := by
  unfold press isDown cell
  by_cases same : j = k
  · subst same
    simp
  · have differ : k.val ≠ j.val := fun h => same (Fin.ext h.symm)
    simp [differ, same]

theorem isDown_release (p : HexPad) (k j : Key) :
    (p.release k).isDown j = (j ≠ k && p.isDown j) := by
  unfold release isDown cell
  by_cases same : j = k
  · subst same
    simp
  · have differ : k.val ≠ j.val := fun h => same (Fin.ext h.symm)
    simp [differ, same]

theorem released_press (p : HexPad) (k : Key) : (p.press k).released = p.released := rfl

theorem released_release (p : HexPad) (k : Key) :
    (p.release k).released = if p.isDown k then some k.val else p.released := rfl

def beginWait (p : HexPad) : HexPad :=
  { p with released := none }

def mask (p : HexPad) : Nat :=
  p.cells.toList.foldr (fun cell n => 2 * n + if cell = 0 then 0 else 1) 0

/-- The keys of a typewriter that stand for the keys of the pad: its left block in place of the
four by four square

    1 2 3 C
    4 5 6 D
    7 8 9 E
    A 0 B F -/
def typewriter : List (Char × Key) := [
  ('1', Key.ofInt 0x1), ('2', Key.ofInt 0x2), ('3', Key.ofInt 0x3), ('4', Key.ofInt 0xC),
  ('q', Key.ofInt 0x4), ('w', Key.ofInt 0x5), ('e', Key.ofInt 0x6), ('r', Key.ofInt 0xD),
  ('a', Key.ofInt 0x7), ('s', Key.ofInt 0x8), ('d', Key.ofInt 0x9), ('f', Key.ofInt 0xE),
  ('z', Key.ofInt 0xA), ('x', Key.ofInt 0x0), ('c', Key.ofInt 0xB), ('v', Key.ofInt 0xF)]

def keyAt? (c : Char) : Option Key :=
  (typewriter.find? (·.1 = c)).map (·.2)

end HexPad

end ChipEight
