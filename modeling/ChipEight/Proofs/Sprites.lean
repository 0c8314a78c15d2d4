import ChipEight.Framebuffer.Sprite
import ChipEight.Proofs.Keeps

/-!
Drawing turns over the lowest bits of cells and nothing else. A sprite that begins inside the
picture is laid over runs as long as its rows, so drawing it never fails.
-/

namespace ChipEight

theorem boundPlace_of_le {size n : Nat} (fits : n ≤ size) : boundPlace size n = n := by
  unfold boundPlace
  omega

namespace Framebuffer

variable {width height : Nat}

theorem bits_length (row : UInt8) : (bits row).length = 8 := by
  simp only [bits, List.length_map, List.length_range]

theorem spread_of_length {size : Nat} {bs : List Bool} (same : bs.length = size) :
    spread size bs = .ok bs := by
  match bs with
  | [] => simp only [spread, same, if_true]
  | [b] =>
    have one : size = 1 := same.symm
    rw [one, spread, List.replicate_one]
  | b :: c :: bs => simp only [spread, same, if_true]

theorem flat_natCast (width x y : Nat) : flat width x y = (x + y * width : Nat) := by
  simp only [flat, Int.natCast_add, Int.natCast_mul]

theorem row_end_le {x y : Nat} (column : x < width) (line : y < height) :
    x + y * width + min 8 (width - x) ≤ width * height := by
  have upTo : (y + 1) * width ≤ height * width := Nat.mul_le_mul_right width line
  rw [Nat.succ_mul] at upTo
  rw [Nat.mul_comm width height]
  omega

theorem drawRow_inside (f : Framebuffer width height) {x y : Nat} (row : UInt8)
    (column : x < width) (line : y < height) :
    drawRow (flat width x y) (min 8 (width - x)) row f =
      .ok (f.flipRun (x + y * width) ((bits row).take (width - x))).2
        (f.flipRun (x + y * width) ((bits row).take (width - x))).1 := by
  have inside := row_end_le column line
  have span : min 8 ((width : Int) - x) = (min 8 (width - x) : Nat) := by omega
  have start : boundPlace (width * height) (flat width x y) = x + y * width := by
    rw [flat_natCast, boundPlace_of_le (by omega)]
  have stop : boundPlace (width * height) (flat width x y + (min 8 (width - x) : Nat)) =
      x + y * width + min 8 (width - x) := by
    rw [flat_natCast, ← Int.natCast_add, boundPlace_of_le inside]
  have taken : (bits row).take (boundPlace (bits row).length (min 8 (width - x) : Nat)) =
      (bits row).take (width - x) := by
    rw [bits_length, boundPlace_of_le (Nat.min_le_left 8 _)]
    rcases Nat.le_total 8 (width - x) with long | short
    · rw [Nat.min_eq_left long, List.take_of_length_le (Nat.le_of_eq (bits_length row)),
        List.take_of_length_le (bits_length row ▸ long)]
    · rw [Nat.min_eq_right short]
  have length : ((bits row).take (width - x)).length =
      x + y * width + min 8 (width - x) - (x + y * width) := by
    rw [List.length_take, bits_length]
    omega
  simp only [drawRow, drawRun, span, start, stop, taken, spread_of_length length, Except.map]

theorem drawLine_succeeds (f : Framebuffer width height) {x y : Nat} (row : UInt8)
    (column : x < width) (line : y < height) : ∃ hit drawn, drawLine x y row f = .ok hit drawn := by
  unfold drawLine
  split
  · exact ⟨false, f, rfl⟩
  · exact ⟨_, _, drawRow_inside f row column line⟩

theorem drawRows_succeeds {x y : Nat} (rows : List UInt8) (f : Framebuffer width height)
    (column : x < width) : ∃ hit drawn, drawRows x y rows f = .ok hit drawn := by
  induction rows generalizing y f with
  | nil => exact ⟨false, f, rfl⟩
  | cons row rows ih =>
    rw [drawRows]
    split
    · exact ⟨false, f, rfl⟩
    · rename_i above
      obtain ⟨hit, drawn, laid⟩ := drawLine_succeeds f row column (y := y) (by omega)
      obtain ⟨later, done, below⟩ := ih (y := y + 1) drawn
      refine ⟨hit || later, done, ?_⟩
      rw [Attempt.bind_of_ok laid, ← Int.natCast_succ, Attempt.bind_of_ok below,
        Attempt.pure_apply]

theorem draw_succeeds {x : Nat} (y : Nat) (rows : List UInt8) (f : Framebuffer width height)
    (column : x < width) : ∃ hit drawn, draw x y rows f = .ok hit drawn := by
  obtain ⟨hit, drawn, laid⟩ := drawRows_succeeds (y := y) rows f column
  refine ⟨hit, { drawn with dirty := true }, ?_⟩
  rw [draw, Attempt.bind_of_ok laid, Attempt.bind_of_ok (Attempt.modify_apply _ drawn),
    Attempt.pure_apply]

def InRange (f : Framebuffer width height) : Prop :=
  ∀ i, f.value i = 0 ∨ f.value i = 1

namespace InRange

variable {f : Framebuffer width height}

theorem clear (f : Framebuffer width height) : f.clear.InRange := by
  intro i
  left
  simp only [value, Framebuffer.clear, Fin.getElem_fin, Vector.getElem_replicate]

theorem invert (range : f.InRange) (i : Fin (width * height)) : (f.invert i).InRange := by
  intro j
  simp only [value, Framebuffer.invert, Fin.getElem_fin, Vector.getElem_set]
  split
  · rcases range i with off | on
    · rw [show f.cells[i.val] = 0 from off]
      exact .inr rfl
    · rw [show f.cells[i.val] = 1 from on]
      exact .inl rfl
  · exact range j

theorem flip (range : f.InRange) (index : Int) : (f.flip index).1.InRange := by
  unfold Framebuffer.flip
  split
  · exact range.invert _
  · exact range

theorem flipRun (range : f.InRange) (start : Nat) (bits : List Bool) :
    (f.flipRun start bits).1.InRange := by
  refine List.foldlRecOn (motive := fun p : Framebuffer width height × Bool => p.1.InRange)
    _ _ range ?_
  rintro ⟨drawn, hit⟩ range ⟨b, k⟩ _
  dsimp only
  split
  · exact range.flip _
  · exact range

theorem drawRun (range : f.InRange) {base span : Int} {bits : List Bool} {hit : Bool}
    {drawn : Framebuffer width height} (done : f.drawRun base span bits = .ok (drawn, hit)) :
    drawn.InRange := by
  simp only [Framebuffer.drawRun] at done
  cases laid : spread (boundPlace (width * height) (base + span) - boundPlace (width * height) base)
      (bits.take (boundPlace bits.length span)) with
  | ok bits =>
    rw [laid, Except.map, Except.ok.injEq] at done
    have flipped := range.flipRun (boundPlace (width * height) base) bits
    rwa [done] at flipped
  | error failure =>
    rw [laid] at done
    cases done

theorem drawRow (base span : Int) (row : UInt8) :
    Attempt.Keeps (fun f : Framebuffer width height => f.InRange) (drawRow base span row) := by
  intro f range
  unfold Framebuffer.drawRow
  cases done : f.drawRun base span (bits row) with
  | ok outcome => exact range.drawRun done
  | error failure => exact range

theorem drawLine (x y : Int) (row : UInt8) :
    Attempt.Keeps (fun f : Framebuffer width height => f.InRange) (drawLine x y row) := by
  unfold Framebuffer.drawLine
  split
  · exact .pure false
  · exact .drawRow _ _ row

theorem drawRows (x y : Int) (rows : List UInt8) :
    Attempt.Keeps (fun f : Framebuffer width height => f.InRange) (drawRows x y rows) := by
  induction rows generalizing y with
  | nil => exact .pure false
  | cons row rows ih =>
    rw [Framebuffer.drawRows]
    split
    · exact .pure false
    · exact .bind (.drawLine x y row) fun _ => .bind (ih _) fun _ => .pure _

theorem draw (x y : Int) (rows : List UInt8) :
    Attempt.Keeps (fun f : Framebuffer width height => f.InRange) (draw x y rows) :=
  .bind (.drawRows x y rows) fun _ => .bind (.modify fun _ range => range) fun _ => .pure _

end InRange

end Framebuffer

end ChipEight
