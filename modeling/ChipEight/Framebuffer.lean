import ChipEight.Attempt

/-!
A picture of pixels, each in a cell that holds one while the pixel is on and zero while it is off.
Cells are addressed flat, row after row.
-/

namespace ChipEight

structure Framebuffer (width height : Nat) where
  cells : Vector UInt8 (width * height) := Vector.replicate (width * height) 0
  dirty : Bool := true
  deriving DecidableEq, Repr

namespace Framebuffer

variable {width height : Nat}

def clear (_ : Framebuffer width height) : Framebuffer width height :=
  {}

/-- The cell with a flat index; a negative index counts from the end. -/
def cell? (width height : Nat) (index : Int) : Option (Fin (width * height)) :=
  let n := if index < 0 then index + (width * height : Nat) else index
  if h : 0 ≤ n ∧ n < (width * height : Nat) then some ⟨n.toNat, by omega⟩ else none

def flat (width : Nat) (x y : Int) : Int :=
  x + y * width

/-- Why a flat index finds no cell among `size`: it lies outside, or it does not even fit a machine
word. -/
def refusal (index : Int) (size : Nat) : Failure :=
  if fitsWord index then .noCell index size
  else if 0 ≤ index ∧ index < Nat.pow 2 64 then .noRoom 64 index
  else .notIndex

def cellAt (width height : Nat) (index : Int) : Except Failure (Fin (width * height)) :=
  match cell? width height index with
  | some i => .ok i
  | none => .error (refusal index (width * height))

def locate (width height : Nat) (x y : Int) : Except Failure (Fin (width * height)) :=
  cellAt width height (flat width x y)

def value (f : Framebuffer width height) (i : Fin (width * height)) : UInt8 :=
  f.cells[i]

def turn (f : Framebuffer width height) (i : Fin (width * height)) (lit : Bool) :
    Framebuffer width height :=
  { cells := f.cells.set i (if lit then 1 else 0), dirty := true }

def invert (f : Framebuffer width height) (i : Fin (width * height)) : Framebuffer width height :=
  { f with cells := f.cells.set i (f.value i ^^^ 1) }

def get (f : Framebuffer width height) (x y : Int) : Except Failure UInt8 :=
  (locate width height x y).map f.value

def set (f : Framebuffer width height) (x y : Int) (lit : Bool) :
    Except Failure (Framebuffer width height) :=
  (locate width height x y).map (f.turn · lit)

def valueAt (f : Framebuffer width height) (x y : Nat) : UInt8 :=
  f.cells.toArray.getD (x + y * width) 0

def row (f : Framebuffer width height) (y : Nat) : List UInt8 :=
  (List.range width).map (f.valueAt · y)

def rows (f : Framebuffer width height) : List (List UInt8) :=
  (List.range height).map f.row

def view (f : Framebuffer width height) : Vector (Vector UInt8 width) height :=
  Vector.ofFn fun y => Vector.ofFn fun x => f.valueAt x y

end Framebuffer

end ChipEight
