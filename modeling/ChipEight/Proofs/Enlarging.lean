import ChipEight.Proofs.Presenting
import ChipEight.Proofs.Repainting

/-!
A window paints every picture on the same canvas and hands it over as the bytes of the same image.
Nothing of an earlier picture is left in them.
-/

namespace ChipEight

namespace WindowFront

open Window (Repainted)

variable {s start : Session WindowFront}

theorem repainted_happen (s : Session WindowFront) (h : Happening) :
    s.outside.window.Repainted (happen s h).outside.window := by
  cases h with
  | window event => exact s.outside.window.repainted_handle (scene s) event
  | toneEnds player => exact .of_eq (quiet_happen (h := .toneEnds player) nofun s).window

theorem repainted_poll (s : Session WindowFront) :
    s.outside.window.Repainted (poll s).outside.window := by
  -- what is queued is delivered, and what happens then is carried through one by one
  refine List.foldlRecOn (motive := fun t : Session WindowFront =>
    s.outside.window.Repainted t.outside.window) _ _ ?_ fun t repainted h _ => ?_
  · exact s.outside.window.repainted_poll (scene s)
  · unfold Session.andThen
    split
    · exact repainted
    · exact repainted.trans (repainted_happen t h)

theorem repainted_move (s : Session WindowFront) (m : Move) :
    s.outside.window.Repainted (move s m).outside.window := by
  by_cases polls : m = .call .poll
  · subst polls
    exact repainted_poll s
  · exact (move_kept polls s).window

theorem repainted_moveAll (start : Session WindowFront) (moves : List Move) :
    start.outside.window.Repainted (moveAll start moves).outside.window :=
  List.foldlRecOn (motive := fun s : Session WindowFront =>
    start.outside.window.Repainted s.outside.window) moves _ (.refl _)
    fun s repainted m _ => repainted.trans (repainted_move s m)

theorem draw_images (w : Window) (scene : Scene) :
    (w.draw scene).calls.filterMap DeviceCall.image? =
        [(w.paint scene.machine.screen).image] ∧
      (w.draw scene).scene = Window.drawn scene := by
  unfold Window.draw
  dsimp only
  split
  · rename_i labels shown
    have silent : labels.filterMap DeviceCall.image? = [] := List.filterMap_eq_nil_iff.mpr
      fun c member => DeviceCall.image?_of_plain (w.labels_plain shown c member)
    refine ⟨?_, rfl⟩
    rw [List.filterMap_append, silent]
    rfl
  · exact ⟨rfl, rfl⟩

/-- Whatever has been drawn and done before, a drawing hands over the picture enlarged: a square of
white or black pixels for each cell, with the lowest row first. It marks the picture as shown and
changes nothing else of the machine. -/
theorem draw_enlarges_picture (untouched : start.outside.window.Untouched) (moves : List Move)
    (binary : (moveAll start moves).machine.screen.InRange) :
    let s := moveAll start moves
    let scale := start.outside.window.scale
    let drawing := s.outside.window.draw (scene s)
    ∃ image data, drawing.calls.filterMap DeviceCall.image? = [image] ∧
      image.data = some data ∧ image.format = "RGBA" ∧ image.pitch = 4 * (64 * scale) ∧
      data.size = 64 * scale * (32 * scale) * 4 ∧
      (∀ x y, x < 64 * scale → y < 32 * scale →
        ∃ cell c, s.machine.screen.get (x / scale : Nat) (31 - y / scale : Nat) = .ok cell ∧
          c = (if cell = 1 then 255 else 0) ∧
          let start := 4 * (y * (64 * scale) + x)
          data.extract start (start + 4) = [c, c, c, 255].toByteArray) ∧
      drawing.scene.machine =
        { s.machine with screen := { s.machine.screen with dirty := false } } := by
  intro s scale drawing
  have repainted := repainted_moveAll start moves
  obtain ⟨images, left⟩ := draw_images s.outside.window (scene s)
  rw [(repainted.ready untouched.ready).image_paint, repainted.scale] at images
  refine ⟨_, _, images, rfl, rfl, Nat.mul_comm _ _, Image.size_enlarged _, fun x y column line => ?_,
    congrArg Scene.machine left⟩
  have across : x / scale < screenWidth := Nat.div_lt_of_lt_mul (Nat.mul_comm 64 scale ▸ column)
  have down : 31 - y / scale < screenHeight := Nat.lt_of_le_of_lt (Nat.sub_le _ _) (by decide)
  refine ⟨_, _, Framebuffer.get_inside _ across down, rfl, ?_⟩
  have bytes := Image.extract_enlarged s.machine.screen column line
  rw [Pixel.bytes_ofCell (binary.valueAt _ _)] at bytes
  exact bytes

/-- The upper left pixel of a picture that a render, a poll and a change have come before becomes a
square of three by three, at the end of the image. -/
theorem draw_enlarges_picture_of_corner :
    let start : Session WindowFront :=
      { machine := .new, settings := {}, outside := { window := { scale := 3 } } }
    let lit : Framebuffer screenWidth screenHeight := Framebuffer.turn {} ⟨0, by decide⟩ true
    let full : Framebuffer screenWidth screenHeight := { cells := Vector.replicate _ 1 }
    let moves : List Move :=
      [.change { screen := full } {}, .call .render, .call .poll, .change { screen := lit } {}]
    let s := moveAll start moves
    start.outside.window.Untouched ∧ s.machine.screen.InRange ∧
      ∃ image data, (s.outside.window.draw (scene s)).calls.filterMap DeviceCall.image? = [image] ∧
        image.data = some data ∧ data.size = 192 * 96 * 4 ∧
        data.extract (4 * (95 * 192 + 2)) (4 * (95 * 192 + 2) + 4) =
          [255, 255, 255, 255].toByteArray ∧
        data.extract (4 * (95 * 192 + 3)) (4 * (95 * 192 + 3) + 4) =
          [0, 0, 0, 255].toByteArray := by
  intro start lit full moves s
  have untouched : start.outside.window.Untouched := ⟨rfl, rfl⟩
  have binary : s.machine.screen.InRange :=
    Framebuffer.InRange.turn (.clear ({} : Framebuffer screenWidth screenHeight)) _ true
  obtain ⟨image, data, drawn, handed, _, _, size, pixels, _⟩ :=
    draw_enlarges_picture untouched moves binary
  have pixel (x y : Nat) (column : x < 64 * 3) (line : y < 32 * 3) {cell : UInt8}
      (holds : lit.get (x / 3 : Nat) (31 - y / 3 : Nat) = .ok cell) :
      let c := if cell = 1 then 255 else 0
      let start := 4 * (y * (64 * 3) + x)
      data.extract start (start + 4) = [c, c, c, 255].toByteArray := by
    obtain ⟨_, c, found, rfl, bytes⟩ := pixels x y column line
    obtain rfl := Except.ok.inj (holds.symm.trans found)
    exact bytes
  exact ⟨untouched, binary, image, data, drawn, handed, size,
    pixel 2 95 (by decide) (by decide) rfl, pixel 3 95 (by decide) (by decide) rfl⟩

end WindowFront

end ChipEight
