import ChipEight.Framebuffer

/-!
A window paints the picture on a small canvas of one pixel for a cell and hands the canvas over
enlarged. The lowest row comes first.
-/

namespace ChipEight

structure Pixel where
  red : UInt8 := 0
  green : UInt8 := 0
  blue : UInt8 := 0
  alpha : UInt8 := 0
  deriving DecidableEq, Repr

namespace Pixel

def paint (p : Pixel) (cell : UInt8) : Pixel :=
  let c := cell * 255
  { p with red := c, green := c, blue := c }

def bytes (p : Pixel) : List UInt8 :=
  [p.red, p.green, p.blue, p.alpha]

end Pixel

/-- Rows of pixels, the lowest first. -/
abbrev Canvas (width height : Nat) := Vector (Vector Pixel width) height

def repeated {α : Type} (n : Nat) (items : List α) : List α :=
  items.flatMap (List.replicate n)

namespace Canvas

variable {width height : Nat}

def blank : Canvas width height :=
  Vector.replicate height (Vector.replicate width { alpha := 255 })

/-- The canvas with a picture on it. The picture's lowest row is its last. -/
def paint (c : Canvas width height) (f : Framebuffer width height) : Canvas width height :=
  Vector.zipWith (Vector.zipWith Pixel.paint) c f.view.reverse

def rows (c : Canvas width height) : List (List Pixel) :=
  c.toList.map Vector.toList

def enlarged (c : Canvas width height) (scale : Nat) : List (List Pixel) :=
  if scale ≠ 1 then (repeated scale c.rows).map (repeated scale) else c.rows

end Canvas

def Image.pixelSize : Nat := 4

/-- An image of the screen, and the bytes that were handed over to it last. A new image is all zero.
Its pitch is how many bytes there are from one row to the next. -/
structure Image where
  width : Nat
  height : Nat
  format : String := "RGBA"
  pitch : Nat := width * Image.pixelSize
  data : Option ByteArray := none
  deriving BEq

namespace Image

def setData (image : Image) (format : String) (pitch : Nat) (data : ByteArray) : Image :=
  { image with format, pitch, data := some data }

def bytesOf (rows : List (List Pixel)) : ByteArray :=
  (rows.flatten.flatMap Pixel.bytes).toByteArray

end Image

end ChipEight
