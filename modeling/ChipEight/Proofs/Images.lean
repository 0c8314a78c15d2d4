import ChipEight.Proofs.Pixels
import ChipEight.Window.Image

/-!
The image of a picture in which every cell has become a square of equal pixels, and its bytes. A
solid canvas shows nothing of what was painted on it before.
-/

namespace ChipEight

section Blocks

variable {α β : Type} {f : α → List β} {n : Nat} {xs : List α}

theorem length_flatMap_blocks (same : ∀ a ∈ xs, (f a).length = n) :
    (xs.flatMap f).length = n * xs.length := by
  induction xs with
  | nil => rfl
  | cons a xs ih =>
    rw [List.forall_mem_cons] at same
    rw [List.flatMap_cons, List.length_append, same.1, ih same.2, List.length_cons, Nat.mul_succ,
      Nat.add_comm]

theorem drop_flatMap_blocks (same : ∀ a ∈ xs, (f a).length = n) {i : Nat} {a : α}
    (place : xs[i]? = some a) :
    (xs.flatMap f).drop (n * i) = f a ++ (xs.drop (i + 1)).flatMap f := by
  obtain ⟨inside, rfl⟩ := List.getElem?_eq_some_iff.mp place
  have before : ((xs.take i).flatMap f).length = n * i := by
    rw [length_flatMap_blocks fun a member => same a (List.mem_of_mem_take member),
      List.length_take, Nat.min_eq_left (Nat.le_of_lt inside)]
  calc (xs.flatMap f).drop (n * i)
      = ((xs.take i ++ xs.drop i).flatMap f).drop (n * i) := by rw [List.take_append_drop]
    _ = (xs.drop i).flatMap f := by rw [List.flatMap_append, ← before, List.drop_left]
    _ = f xs[i] ++ (xs.drop (i + 1)).flatMap f := by
      rw [List.drop_eq_getElem_cons inside, List.flatMap_cons]

theorem take_flatMap_block (same : ∀ a ∈ xs, (f a).length = n) {i : Nat} {a : α}
    (place : xs[i]? = some a) : ((xs.flatMap f).drop (n * i)).take n = f a := by
  rw [drop_flatMap_blocks same place]
  exact List.take_left' (same a (List.mem_of_getElem? place))

theorem getElem?_flatMap_block (same : ∀ a ∈ xs, (f a).length = n) {i j : Nat} {a : α}
    (place : xs[i]? = some a) (inside : j < n) : (xs.flatMap f)[n * i + j]? = (f a)[j]? := by
  have length := same a (List.mem_of_getElem? place)
  rw [← List.getElem?_drop, drop_flatMap_blocks same place,
    List.getElem?_append_left (length ▸ inside)]

theorem getElem?_flatMap_replicate (g : α → β) {i : Nat} {a : α}
    (place : xs[i / n]? = some a) (positive : 0 < n) :
    (xs.flatMap fun a => List.replicate n (g a))[i]? = some (g a) := by
  have inside : i % n < n := Nat.mod_lt i positive
  have block := getElem?_flatMap_block (f := fun a => List.replicate n (g a))
    (fun _ _ => List.length_replicate) place inside
  rwa [Nat.div_add_mod, List.getElem?_replicate_of_lt inside] at block

end Blocks

def Pixel.ofCell (cell : UInt8) : Pixel :=
  let c := cell * 255
  ⟨c, c, c, 255⟩

theorem Pixel.bytes_ofCell {cell : UInt8} (binary : cell = 0 ∨ cell = 1) :
    let c := if cell = 1 then 255 else 0
    (ofCell cell).bytes = [c, c, c, 255] := by
  rcases binary with rfl | rfl <;> rfl

namespace Image

variable {width height scale x y : Nat}

def enlargedRow (scale : Nat) (row : List UInt8) : List Pixel :=
  row.flatMap fun cell => List.replicate scale (Pixel.ofCell cell)

def enlargedRows (scale : Nat) (f : Framebuffer width height) : List (List Pixel) :=
  f.rows.reverse.flatMap fun row => List.replicate scale (enlargedRow scale row)

/-- The image that shows a picture enlarged. -/
def enlarged (scale : Nat) (f : Framebuffer width height) : Image where
  width := width * scale
  height := height * scale
  data := some (bytesOf (enlargedRows scale f))

variable (f : Framebuffer width height)

theorem length_enlargedRow (row : List UInt8) :
    (enlargedRow scale row).length = scale * row.length :=
  length_flatMap_blocks fun _ _ => List.length_replicate

theorem length_enlargedRows : (enlargedRows scale f).length = height * scale := by
  rw [enlargedRows, length_flatMap_blocks fun _ _ => List.length_replicate]
  simp [Framebuffer.rows, Nat.mul_comm]

theorem length_row_enlargedRows : ∀ row ∈ enlargedRows scale f, row.length = width * scale := by
  intro row member
  obtain ⟨cells, listed, repeated⟩ := List.mem_flatMap.mp member
  obtain ⟨y, _, rfl⟩ := List.mem_map.mp (List.mem_reverse.mp listed)
  rw [List.eq_of_mem_replicate repeated, length_enlargedRow]
  simp [Framebuffer.row, Nat.mul_comm]

theorem row_enlargedRows (line : y < height * scale) :
    (enlargedRows scale f)[y]? = some (enlargedRow scale (f.row (height - 1 - y / scale))) := by
  have positive : 0 < scale := Nat.pos_of_mul_pos_left (Nat.zero_lt_of_lt line)
  have below : y / scale < height := Nat.div_lt_of_lt_mul (Nat.mul_comm height scale ▸ line)
  refine getElem?_flatMap_replicate (enlargedRow scale) ?_ positive
  have above : height - 1 - y / scale < height :=
    Nat.lt_of_le_of_lt (Nat.sub_le _ _) (Nat.sub_one_lt (Nat.ne_zero_of_lt below))
  rw [List.getElem?_reverse (by simpa [Framebuffer.rows] using below)]
  simp [Framebuffer.rows, above]

theorem pixel_enlargedRow (row : Nat) (column : x < width * scale) :
    (enlargedRow scale (f.row row))[x]? = some (Pixel.ofCell (f.valueAt (x / scale) row)) := by
  have positive : 0 < scale := Nat.pos_of_mul_pos_left (Nat.zero_lt_of_lt column)
  have inside : x / scale < width := Nat.div_lt_of_lt_mul (Nat.mul_comm width scale ▸ column)
  refine getElem?_flatMap_replicate Pixel.ofCell ?_ positive
  simp [Framebuffer.row, inside]

theorem size_bytesOf (rows : List (List Pixel)) :
    (bytesOf rows).size = pixelSize * rows.flatten.length := by
  rw [bytesOf, List.size_toByteArray]
  exact length_flatMap_blocks fun _ _ => rfl

theorem size_enlarged :
    (bytesOf (enlargedRows scale f)).size = width * scale * (height * scale) * pixelSize := by
  rw [size_bytesOf, ← List.flatMap_id, length_flatMap_blocks (f := id) (length_row_enlargedRows f),
    length_enlargedRows, Nat.mul_comm]

theorem extract_bytesOf (rows : List (List Pixel)) (start : Nat) :
    (bytesOf rows).extract start (start + pixelSize) =
      (((rows.flatten.flatMap Pixel.bytes).drop start).take pixelSize).toByteArray := by
  ext1
  rw [bytesOf, ByteArray.data_extract, List.data_toByteArray, List.data_toByteArray,
    List.extract_toArray, List.extract, Nat.add_sub_cancel_left]

theorem extract_enlarged (column : x < width * scale) (line : y < height * scale) :
    let start := pixelSize * (y * (width * scale) + x)
    (bytesOf (enlargedRows scale f)).extract start (start + pixelSize) =
      (Pixel.ofCell (f.valueAt (x / scale) (height - 1 - y / scale))).bytes.toByteArray := by
  intro start
  rw [extract_bytesOf]
  congr 1
  refine take_flatMap_block (f := Pixel.bytes) (n := pixelSize) (fun _ _ => rfl) ?_
  rw [← List.flatMap_id, Nat.mul_comm y,
    getElem?_flatMap_block (f := id) (length_row_enlargedRows f) (row_enlargedRows f line) column]
  exact pixel_enlargedRow f _ column

end Image

theorem Pixel.bytes_inj {p q : Pixel} (same : p.bytes = q.bytes) : p = q := by
  cases p
  cases q
  simp_all [bytes]

theorem Pixel.ofCell_inj {a b : UInt8} (same : ofCell a = ofCell b) : a = b := by
  have red : a * 255 = b * 255 := congrArg Pixel.red same
  have back (c : UInt8) : c * 255 * 255 = c := by
    rw [UInt8.mul_assoc, show (255 * 255 : UInt8) = 1 from rfl, UInt8.mul_one]
  rw [← back a, red, back b]

section

variable {width height scale : Nat} {f g : Framebuffer width height}

theorem Image.enlarged_of_cells (scale : Nat) (same : f.cells = g.cells) :
    enlarged scale f = enlarged scale g := by
  rcases f with ⟨cells, dirty⟩
  cases same
  rfl

theorem Image.valueAt_of_enlarged (positive : 0 < scale) (same : enlarged scale f = enlarged scale g)
    {x y : Nat} (column : x < width) (line : y < height) : f.valueAt x y = g.valueAt x y := by
  have data : bytesOf (enlargedRows scale f) = bytesOf (enlargedRows scale g) :=
    Option.some.inj (congrArg Image.data same)
  have across : x * scale < width * scale := Nat.mul_lt_mul_of_pos_right column positive
  have up : (height - 1 - y) * scale < height * scale :=
    Nat.mul_lt_mul_of_pos_right (by omega) positive
  have bytes := (extract_enlarged f across up).symm.trans (data ▸ extract_enlarged g across up)
  have down : height - 1 - (height - 1 - y) = y := by omega
  rw [Nat.mul_div_cancel _ positive, Nat.mul_div_cancel _ positive, down] at bytes
  exact Pixel.ofCell_inj (Pixel.bytes_inj (List.toByteArray_inj.mp bytes))

/-- Enlarged pictures are the same image exactly if their pixels are the same. -/
theorem Image.enlarged_inj (positive : 0 < scale) :
    enlarged scale f = enlarged scale g ↔ f.cells = g.cells :=
  ⟨fun same => Framebuffer.cells_of_pixels fun _ _ => valueAt_of_enlarged positive same,
    enlarged_of_cells scale⟩

end

namespace Canvas

variable {width height : Nat} {canvas : Canvas width height}

/-- Nothing shows through a canvas. -/
def Solid (canvas : Canvas width height) : Prop :=
  ∀ y x (line : y < height) (column : x < width), canvas[y][x].alpha = 255

theorem solid_blank : (blank : Canvas width height).Solid := by
  intro y x line column
  simp [blank]

theorem Solid.paint (solid : canvas.Solid) (f : Framebuffer width height) :
    (canvas.paint f).Solid := by
  intro y x line column
  simp only [Canvas.paint, Vector.getElem_zipWith]
  exact solid y x line column

theorem Solid.getElem_paint (solid : canvas.Solid) (f : Framebuffer width height) {x y : Nat}
    (line : y < height) (column : x < width) :
    (canvas.paint f)[y][x] = .ofCell (f.valueAt x (height - 1 - y)) := by
  have alpha := solid y x line column
  simp [Canvas.paint, Framebuffer.view, Pixel.paint, Pixel.ofCell, alpha]

theorem Solid.rows_paint (solid : canvas.Solid) (f : Framebuffer width height) :
    (canvas.paint f).rows = f.rows.reverse.map (List.map Pixel.ofCell) := by
  refine List.ext_getElem ?_ fun y line _ => List.ext_getElem ?_ fun x column _ => ?_
  · simp [rows, Framebuffer.rows]
  · simp [rows, Framebuffer.rows, Framebuffer.row]
  · have painted := solid.getElem_paint f (by simpa [rows] using line) (by simpa [rows] using column)
    simp [rows, Framebuffer.rows, Framebuffer.row, painted]

theorem repeated_one {α : Type} (items : List α) : repeated 1 items = items :=
  List.flatMap_singleton' items

theorem enlarged_eq (canvas : Canvas width height) (scale : Nat) :
    canvas.enlarged scale = (repeated scale canvas.rows).map (repeated scale) := by
  unfold enlarged
  split
  · rfl
  · rename_i single
    have one : scale = 1 := Decidable.not_not.mp single
    subst one
    have row : repeated 1 = @id (List Pixel) := funext repeated_one
    rw [repeated_one, row, List.map_id]

theorem Solid.enlarged_paint (solid : canvas.Solid) (f : Framebuffer width height) (scale : Nat) :
    (canvas.paint f).enlarged scale = Image.enlargedRows scale f := by
  rw [enlarged_eq, solid.rows_paint, repeated, List.flatMap_map, List.map_flatMap,
    Image.enlargedRows]
  congr
  funext row
  rw [List.map_replicate, repeated, List.flatMap_map, Image.enlargedRow]

end Canvas

end ChipEight
