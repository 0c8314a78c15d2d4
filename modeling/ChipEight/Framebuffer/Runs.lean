import ChipEight.Framebuffer

/-!
A row of a sprite may be laid over any run of cells. A row that is as long as its run flips it bit
by bit, a row of a single bit flips the whole run, and all others are refused.
-/

namespace ChipEight

def boundPlace (size : Nat) (bound : Int) : Nat :=
  (min (if bound < 0 then bound + size else bound) size).toNat

namespace Framebuffer

variable {width height : Nat}

def flip (f : Framebuffer width height) (index : Int) : Framebuffer width height × Bool :=
  match cell? width height index with
  | some i => (f.invert i, f.value i &&& 1 ≠ 0)
  | none => (f, false)

def bit (row : UInt8) (column : Nat) : Bool :=
  row.toNat.testBit (7 - column)

def bits (row : UInt8) : List Bool :=
  (List.range 8).map (bit row)

def spread (size : Nat) (bits : List Bool) : Except Failure (List Bool) :=
  match bits with
  | [b] => .ok (List.replicate size b)
  | bits =>
    if bits.length = size then .ok bits
    else if size = 1 then .error (.runTooShort bits.length)
    else .error (.runUnlike size bits.length)

def flipRun (f : Framebuffer width height) (start : Nat) (bits : List Bool) :
    Framebuffer width height × Bool :=
  bits.zipIdx.foldl
    (fun (f, hit) (b, k) =>
      if b then
        let (f, lit) := f.flip (start + k : Nat)
        (f, hit || lit)
      else (f, hit))
    (f, false)

/-- Lays the first bits of a sprite row over the run that begins at a flat index. Both the run and
the bits taken are bounded by `span`. -/
def drawRun (f : Framebuffer width height) (base span : Int) (bits : List Bool) :
    Except Failure (Framebuffer width height × Bool) :=
  let start := boundPlace (width * height) base
  let stop := boundPlace (width * height) (base + span)
  (spread (stop - start) (bits.take (boundPlace bits.length span))).map (f.flipRun start)

def setAll (f : Framebuffer width height) (cells : List (Fin (width * height))) (lit : Bool) :
    Framebuffer width height :=
  { cells.foldl (fun f i => f.turn i lit) f with dirty := true }

end Framebuffer

end ChipEight
