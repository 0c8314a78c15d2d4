import ChipEight.Argument.Arithmetic
import ChipEight.Framebuffer.Sprite
import ChipEight.Memory

/-!
A place in a picture may be named by values of any kind, and lists name several cells at once. The
sides of a picture may bound no rectangle though they have a product, as a list and a number do.
-/

namespace ChipEight

/-! ## Lists of lists -/

def commonPart : List Nat → List Nat → List Nat
  | n :: ns, m :: ms => if n = m then n :: commonPart ns ms else []
  | _, _ => []

namespace Value

mutual

def shape : Value → List Nat
  | list vs => vs.length :: innerShape vs
  | _ => []

def innerShape : List Value → List Nat
  | [] => []
  | [v] => shape v
  | v :: vs => commonPart (shape v) (innerShape vs)

end

def leavesAt : Nat → Value → Option (List Value)
  | 0, list _ => none
  | 0, v => some [v]
  | depth + 1, list vs => (vs.mapM (leavesAt depth)).map List.flatten
  | _ + 1, _ => none

def leaves (v : Value) : Except Failure (List Value) :=
  match v.leavesAt (min v.shape.length levelLimit) with
  | some vs => .ok vs
  | none => .error (if levelLimit ≤ v.shape.length then .tooDeep else .uneven v.shape)

def isTruth : Value → Bool
  | bool _ => true
  | _ => false

end Value

namespace Framebuffer

variable {width height : Nat}

/-! ## Sizes -/

def sideOf (v : Value) : Except Failure Int := do
  let n ← if v.isTruth then throw (.unfit v .extent) else v.asInteger .extent
  if fitsWord n then return n else throw .endlessPicture

structure Sides where
  across : Value
  down : Value
  /-- The lengths of the axes along which the cells lie, a single one unless a side is a list. -/
  axes : List Nat

def Sides.ofLengths (width height : Nat) : Sides :=
  ⟨.whole width, .whole height, [width * height]⟩

def axesFrom (cells : Nat) : List Int → Except Failure (List Nat)
  | [] => .ok []
  | n :: ns =>
    let cells := if n = 0 then cells else cells * n.toNat
    if n < 0 then .error .negativePicture
    else if Nat.pow 2 63 ≤ cells then .error .hugePicture
    else (axesFrom cells ns).map (n.toNat :: ·)

/-- The axes that a product of sides stands for: a whole number is the length of a single one, and a
list holds the lengths of all. -/
def axesOf : Value.Product → Except Failure (List Nat)
  | .number (.whole n) => do axesFrom 1 [← sideOf (.whole n)]
  | .number n => .error (.brokenPicture (.number n))
  | .copies row times => do
    let items ← row.items .extent
    if levelLimit < items.length * times then throw (.tooManyAxes (items.length * times))
    axesFrom 1 (← (List.replicate times items).flatten.mapM sideOf)

def shapeOf (width height : Value) : Except Failure (Nat × Nat) := do
  let h ← sideOf height
  let w ← sideOf width
  if h < 0 ∨ w < 0 then throw (.noShape h w)
  return (w.toNat, h.toNat)

structure Order where
  sides : Sides
  shape : Except Failure (Nat × Nat)

def Order.cells (o : Order) : Nat :=
  cellCount o.sides.axes

def order (width height : Value) : Except Failure Order := do
  let axes ← axesOf (← width.product height)
  if roomLimit < cellCount axes then throw (.noPictureRoom axes)
  return { sides := ⟨width, height, axes⟩, shape := shapeOf width height }

/-! ## Pixels -/

def placeOf (width x y : Value) : Except Failure Value := do
  x.plus (← y.times width)

def isLongWord (n : Int) : Bool :=
  !fitsWord n && 0 ≤ n && n < Nat.pow 2 64

/-- The indices that a list of integers stands for: signed machine words, or unsigned ones beyond
them, which are counted down from the end. Truth values go with either. -/
def indicesOf (vs : List Value) : Except Failure (List Int) :=
  match vs.mapM Value.toInt?, (vs.filter (!·.isTruth)).mapM Value.toInt? with
  | some numbers, some proper =>
    if proper.all fitsWord then .ok numbers
    else if proper.all isLongWord then .ok (numbers.map fun n => n.bmod (Nat.pow 2 64))
    else .error .notIndex
  | _, _ => .error .notIndex

def sliceAt (axes : List Nat) (index : Int) : Except Failure Nat :=
  match axes with
  | [] => .error (.tooManyIndices 0 1)
  | size :: _ =>
    let n := if index < 0 then index + size else index
    if 0 ≤ n ∧ n < size then .ok n.toNat else .error (refusal index size)

def checkMask (axes lengths : List Nat) : Except Failure Unit :=
  if axes.length < lengths.length then .error (.tooManyIndices axes.length lengths.length)
  else
    match (axes.zip lengths).zipIdx.find? fun ((size, length), _) => size ≠ length with
    | some ((size, length), axis) => .error (.maskUnlike axis size length)
    | none => .ok ()

def slices (width height size : Nat) (numbers : List Nat) : List (Fin (width * height)) :=
  numbers.flatMap fun n : Nat =>
    (List.range size).filterMap fun k : Nat => cell? width height (n * size + k : Nat)

/-- The cells that a place names: by an index, or in lists by indices or by truth values, one for
each slice. -/
def cellsOf (width height : Nat) (axes : List Nat) (place : Value) :
    Except Failure (List (Fin (width * height))) := do
  match place with
  | .whole n =>
    if !fitsWord n then throw (refusal n 0)
    return slices width height (cellCount (axes.drop 1)) [← sliceAt axes n]
  | .list vs =>
    let values ← (Value.list vs).leaves
    if !values.isEmpty && values.all Value.isTruth then
      let lengths := (Value.list vs).shape
      checkMask axes lengths
      let picked := values.zipIdx.filterMap fun (v, k) => if v.isTrue then some k else none
      return slices width height (cellCount (axes.drop lengths.length)) picked
    let indices ← indicesOf values
    if axes.isEmpty then throw (.tooManyIndices 0 1)
    return slices width height (cellCount (axes.drop 1)) (← indices.mapM (sliceAt axes))
  | _ => throw .notIndex

def clearAt (f : Framebuffer width height) (s : Sides := .ofLengths width height) :
    Except Failure (Framebuffer width height) :=
  if s.axes.isEmpty then .error (.tooManyIndices 0 1) else .ok f.clear

def getAt (f : Framebuffer width height) (x y : Value) (s : Sides := .ofLengths width height) :
    Except Failure UInt8 := do
  match ← placeOf s.across x y, s.axes with
  | .whole n, [_] => (cellAt width height n).map f.value
  | place, axes =>
    let _ ← cellsOf width height axes place
    throw .manyPixels

def setAt (f : Framebuffer width height) (x y : Value) (lit : Bool)
    (s : Sides := .ofLengths width height) : Except Failure (Framebuffer width height) := do
  match ← placeOf s.across x y, s.axes with
  | .whole n, [_] => return f.setAll [← cellAt width height n] lit
  | place, axes => return f.setAll (← cellsOf width height axes place) lit

/-! ## Sprites -/

def spriteByte (v : Value) : Except Failure UInt8 := do
  let n ← v.integer
  if 0 ≤ n ∧ n ≤ 0xFF then return lowByte n else throw (.noRoom 8 n)

def bitsOf (v : Value) : Except Failure (List Bool) := do
  let row ← (← (Value.list [v]).leaves).mapM spriteByte
  return row.flatMap bits

def isBlank (v : Value) : Bool :=
  match v.toNumber? with
  | some n => !n.isNonZero
  | none => false

/-- Lays one row of a sprite over the picture, in which a row takes `across` pixels and `room` are
left from `x` on. A place that is not whole bounds no run. -/
def layRow (f : Framebuffer width height) (across room x y : Number) (row : Value) :
    Except Failure (Framebuffer width height × Bool) := do
  let bits ← bitsOf row
  match (Number.whole 8).least room with
  | .whole span =>
    match ← x.plus (← y.times across) with
    | .whole base => f.drawRun base span bits
    | .double _ => throw (.unfit row .bound)
  | .double _ => throw (.unfit row .bound)

def layRows (f : Framebuffer width height) (down : Value) (across room x y : Number) (k : Nat)
    (hit : Bool) : List Value → Framebuffer width height × Except Failure Bool
  | [] => ({ f with dirty := true }, .ok hit)
  | row :: rows =>
    let low := y + .whole k
    match Value.compare .atLeast (.number low) down with
    | .error failure => (f, .error failure)
    | .ok true => ({ f with dirty := true }, .ok hit)
    | .ok false =>
      if isBlank row then f.layRows down across room x y (k + 1) hit rows
      else
        match f.layRow across room x low row with
        | .ok (f, lit) => f.layRows down across room x y (k + 1) (hit || lit) rows
        | .error failure => (f, .error failure)

def plainSprite (width : Nat) (x y : Value) (rows : List Value) :
    Option (Nat × Nat × List UInt8) := do
  let x ← x.toInt?
  let y ← y.toInt?
  guard (0 ≤ x ∧ x < width ∧ 0 ≤ y)
  return (x.toNat, y.toNat, ← rows.mapM Memory.byte?)

structure Stroke where
  across : Number
  room : Number
  column : Number
  row : Number
  rows : List Value

def strokeOf (across x y rows : Value) : Except Failure Stroke := do
  let room ← across.minus x
  let refused : Failure := .operands "-" across x
  let (width, column) := (← across.asNumber refused, ← x.asNumber refused)
  let values ← rows.items .iteration
  if values.isEmpty then return ⟨width, room, column, .whole 0, []⟩
  return ⟨width, room, column, ← y.asNumber (.operands "+" y (.whole 0)), values⟩

def drawAt (f : Framebuffer width height) (x y rows : Value)
    (s : Sides := .ofLengths width height) : Framebuffer width height × Except Failure Bool :=
  match strokeOf s.across x y rows with
  | .error failure => (f, .error failure)
  | .ok stroke =>
    let isPlain := s.across.toInt? = some (width : Int) ∧ s.down.toInt? = some (height : Int)
    match if isPlain then plainSprite width x y stroke.rows else none with
    | some (x, y, bytes) => (Attempt.reply (draw x y bytes f)).swap
    | none =>
      f.layRows s.down stroke.across stroke.room stroke.column stroke.row 0 false stroke.rows

end Framebuffer

end ChipEight
