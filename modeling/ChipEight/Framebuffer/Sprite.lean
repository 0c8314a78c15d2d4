import ChipEight.Framebuffer.Runs

/-!
A sprite is eight pixels wide and drawn by exclusive or, row by row, each row over the run of cells
where it lies. Rows below the lower edge and columns beyond the right edge are dropped.
-/

namespace ChipEight

namespace Framebuffer

variable {width height : Nat}

def drawRow (base span : Int) (row : UInt8) : Attempt (Framebuffer width height) Bool := fun f =>
  match f.drawRun base span (bits row) with
  | .ok (drawn, hit) => .ok hit drawn
  | .error failure => .error failure f

def drawLine (x y : Int) (row : UInt8) : Attempt (Framebuffer width height) Bool :=
  if row = 0 then pure false else drawRow (flat width x y) (min 8 (width - x)) row

def drawRows (x y : Int) : List UInt8 → Attempt (Framebuffer width height) Bool
  | [] => return false
  | row :: rows => do
    if height ≤ y then return false
    else
      let hit ← drawLine x y row
      let later ← drawRows x (y + 1) rows
      return hit || later

def draw (x y : Int) (rows : List UInt8) : Attempt (Framebuffer width height) Bool := do
  let hit ← drawRows x y rows
  modify fun f => { f with dirty := true }
  return hit

end Framebuffer

end ChipEight
