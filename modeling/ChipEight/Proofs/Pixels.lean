import ChipEight.Proofs.Reachable
import ChipEight.Proofs.Sprites
import Mathlib.Data.List.Induction

/-!
The flat cells behind a row of a sprite are the pixels to its right. So a run of cells turns over
pixels of one line only, and the rows of a sprite touch no pixel twice.
-/

namespace ChipEight

namespace Framebuffer

variable {width height : Nat} {f g : Framebuffer width height}

/-! ### Cells -/

def flatValue (f : Framebuffer width height) (j : Nat) : UInt8 :=
  f.cells.toArray.getD j 0

theorem flatValue_of_lt {j : Nat} (bound : j < width * height) : f.flatValue j = f.cells[j] := by
  simp [flatValue, Array.getD, bound]

theorem flatValue_of_ge {j : Nat} (outside : ¬ j < width * height) : f.flatValue j = 0 := by
  simp [flatValue, Array.getD, outside]

theorem cell?_natCast {i : Nat} (inside : i < width * height) :
    cell? width height i = some ⟨i, inside⟩ := by
  have forward : ¬ (i : Int) < 0 := by omega
  simp only [cell?, forward, if_false]
  rw [dif_pos (by omega)]
  rfl

theorem valueAt_mod_div (f : Framebuffer width height) (i : Nat) :
    f.valueAt (i % width) (i / width) = f.flatValue i := by
  rw [valueAt, Nat.mod_add_div', flatValue]

theorem cells_of_pixels {g : Framebuffer width height}
    (same : ∀ px py, px < width → py < height → f.valueAt px py = g.valueAt px py) :
    f.cells = g.cells := by
  ext i bound
  have wide : 0 < width := Nat.pos_of_mul_pos_right (Nat.zero_lt_of_lt bound)
  rw [← flatValue_of_lt bound, ← flatValue_of_lt bound, ← valueAt_mod_div, ← valueAt_mod_div,
    same _ _ (Nat.mod_lt i wide) (Nat.div_lt_of_lt_mul bound)]

theorem get_inside (f : Framebuffer width height) {x y : Nat} (column : x < width)
    (line : y < height) : f.get x y = .ok (f.valueAt x y) := by
  have inside : x + y * width < width * height := by
    have ends := row_end_le column line
    omega
  rw [get, locate, cellAt, flat_natCast, cell?_natCast inside]
  exact congrArg Except.ok (flatValue_of_lt inside).symm

theorem flip_of_lt (f : Framebuffer width height) {i : Nat} (inside : i < width * height) :
    f.flip i = (f.invert ⟨i, inside⟩, decide (f.flatValue i &&& 1 ≠ 0)) := by
  rw [Framebuffer.flip, cell?_natCast inside, flatValue_of_lt inside]
  rfl

theorem flatValue_invert (f : Framebuffer width height) {i : Nat} (inside : i < width * height)
    (j : Nat) :
    (f.invert ⟨i, inside⟩).flatValue j = f.flatValue j ^^^ (if j = i then 1 else 0) := by
  by_cases bound : j < width * height
  · rw [flatValue_of_lt bound, flatValue_of_lt bound]
    simp only [invert, value, Fin.getElem_fin, Vector.getElem_set]
    by_cases here : i = j
    · subst here
      simp
    · rw [if_neg here, if_neg (Ne.symm here)]
      simp
  · rw [flatValue_of_ge bound, flatValue_of_ge bound, if_neg (by omega)]
    rfl

/-! ### Runs -/

def bitOver (start : Nat) (bits : List Bool) (j : Nat) : Bool :=
  start ≤ j && bits.getD (j - start) false

theorem bitOver_concat (start : Nat) (bits : List Bool) (b : Bool) (j : Nat) :
    bitOver start (bits ++ [b]) j =
      if j = start + bits.length then b else bitOver start bits j := by
  unfold bitOver
  by_cases before : start ≤ j
  · obtain ⟨k, rfl⟩ := Nat.exists_eq_add_of_le before
    by_cases last : k = bits.length
    · subst last
      simp
    · have other : ¬ start + k = start + bits.length := by omega
      rw [if_neg other, Nat.add_sub_cancel_left, List.getD_eq_getElem?_getD,
        List.getD_eq_getElem?_getD, List.getElem?_append]
      split
      · rfl
      · rw [List.getElem?_eq_none (by simp; omega), List.getElem?_eq_none (by omega)]
  · have other : ¬ j = start + bits.length := by omega
    simp [before, other]

theorem bitOver_behind {start j : Nat} {bits : List Bool} (behind : start + bits.length ≤ j) :
    bitOver start bits j = false := by
  have none : bits[j - start]? = none := List.getElem?_eq_none (by omega)
  simp [bitOver, none]

theorem flipRun_concat (f : Framebuffer width height) (start : Nat) (bits : List Bool) (b : Bool) :
    f.flipRun start (bits ++ [b]) =
      if b then
        (((f.flipRun start bits).1.flip (start + bits.length : Nat)).1,
          (f.flipRun start bits).2 || ((f.flipRun start bits).1.flip (start + bits.length : Nat)).2)
      else f.flipRun start bits := by
  simp [flipRun, List.zipIdx_append, List.foldl_append]

theorem flatValue_flipRun {start : Nat} {bits : List Bool}
    (fits : start + bits.length ≤ width * height) (j : Nat) :
    (f.flipRun start bits).1.flatValue j =
      f.flatValue j ^^^ (if bitOver start bits j then 1 else 0) := by
  induction bits using List.reverseRecOn generalizing j with
  | nil => simp [flipRun, bitOver]
  | append_singleton bits b ih =>
    rw [List.length_append, List.length_singleton] at fits
    have flipped := ih (by omega)
    have inside : start + bits.length < width * height := by omega
    rw [flipRun_concat, bitOver_concat]
    have untouched := bitOver_behind (Nat.le_refl (start + bits.length))
    cases b with
    | false =>
      rw [if_neg (by decide), flipped]
      by_cases last : j = start + bits.length
      · simp [last, untouched]
      · simp [last]
    | true =>
      rw [if_pos rfl, flip_of_lt _ inside, flatValue_invert, flipped]
      by_cases last : j = start + bits.length
      · simp [last, untouched]
      · simp [last]

theorem flipRun_hit_iff {start : Nat} {bits : List Bool}
    (fits : start + bits.length ≤ width * height) :
    (f.flipRun start bits).2 = true ↔ ∃ j, bitOver start bits j ∧ f.flatValue j &&& 1 ≠ 0 := by
  induction bits using List.reverseRecOn with
  | nil => simp [flipRun, bitOver]
  | append_singleton bits b ih =>
    rw [List.length_append, List.length_singleton] at fits
    have inside : start + bits.length < width * height := by omega
    have fresh : (f.flipRun start bits).1.flatValue (start + bits.length) =
        f.flatValue (start + bits.length) := by
      rw [flatValue_flipRun (by omega), bitOver_behind (Nat.le_refl _)]
      simp
    have earlier : (∃ j, bitOver start (bits ++ [b]) j ∧ f.flatValue j &&& 1 ≠ 0) ↔
        (∃ j, bitOver start bits j ∧ f.flatValue j &&& 1 ≠ 0) ∨
          b = true ∧ f.flatValue (start + bits.length) &&& 1 ≠ 0 := by
      constructor
      · rintro ⟨j, covered, lit⟩
        rw [bitOver_concat] at covered
        split at covered
        · rename_i last
          exact .inr ⟨covered, last ▸ lit⟩
        · exact .inl ⟨j, covered, lit⟩
      · rintro (⟨j, covered, lit⟩ | ⟨on, lit⟩)
        · refine ⟨j, ?_, lit⟩
          rw [bitOver_concat, if_neg, covered]
          rintro rfl
          rw [bitOver_behind (Nat.le_refl _)] at covered
          cases covered
        · refine ⟨_, ?_, lit⟩
          rw [bitOver_concat, if_pos rfl, on]
    rw [earlier, ← ih (by omega), flipRun_concat]
    cases b with
    | false => simp
    | true =>
      rw [if_pos rfl, flip_of_lt _ inside, fresh]
      simp

/-! ### Pictures -/

/-- One picture is another with the pixels turned over where `marks` says so, and the answer tells
whether one of them was on. -/
structure Laid (f : Framebuffer width height) (marks : Nat → Nat → Bool)
    (drawn : Framebuffer width height) (hit : Bool) : Prop where
  pixels : ∀ px py, px < width → py < height →
    drawn.valueAt px py = f.valueAt px py ^^^ (if marks px py then 1 else 0)
  hit : hit = true ↔
    ∃ px py, px < width ∧ py < height ∧ marks px py ∧ f.valueAt px py &&& 1 ≠ 0

theorem Laid.blank {marks : Nat → Nat → Bool}
    (blank : ∀ px py, px < width → py < height → marks px py = false) : Laid f marks f false where
  pixels px py column line := by
    rw [blank px py column line]
    simp
  hit := by
    constructor
    · rintro ⟨⟩
    · rintro ⟨px, py, column, line, marked, _⟩
      rw [blank px py column line] at marked
      cases marked

theorem Laid.append {drawn : Framebuffer width height} {first second marks : Nat → Nat → Bool}
    {p q : Bool} (one : Laid f first g p) (two : Laid g second drawn q)
    (apart : ∀ px py, first px py → second px py = false)
    (both : ∀ px py, marks px py = (first px py || second px py)) :
    Laid f marks drawn (p || q) where
  pixels px py column line := by
    rw [two.pixels px py column line, one.pixels px py column line, both]
    cases marked : first px py with
    | false => simp
    | true => simp [apart px py marked]
  hit := by
    rw [Bool.or_eq_true, one.hit, two.hit]
    constructor
    · rintro (⟨px, py, column, line, marked, lit⟩ | ⟨px, py, column, line, marked, lit⟩)
      · exact ⟨px, py, column, line, by rw [both, marked, Bool.true_or], lit⟩
      · have free : first px py = false := by
          cases taken : first px py with
          | false => rfl
          | true =>
            rw [apart px py taken] at marked
            cases marked
        rw [one.pixels px py column line, free] at lit
        exact ⟨px, py, column, line, by rw [both, marked, Bool.or_true], by simpa using lit⟩
    · rintro ⟨px, py, column, line, marked, lit⟩
      rw [both, Bool.or_eq_true] at marked
      cases taken : first px py with
      | true => exact .inl ⟨px, py, column, line, taken, lit⟩
      | false =>
        refine .inr ⟨px, py, column, line, ?_, ?_⟩
        · simpa [taken] using marked
        · rw [one.pixels px py column line, taken]
          simpa using lit

/-! ### Sprites -/

def rowBit (x : Nat) (row : UInt8) (px : Nat) : Bool :=
  x ≤ px && px < x + 8 && bit row (px - x)

def spriteBit (x y : Nat) (rows : List UInt8) (px py : Nat) : Bool :=
  y ≤ py && rowBit x (rows.getD (py - y) 0) px

theorem rowBit_zero (x px : Nat) : rowBit x 0 px = false := by
  simp [rowBit, bit]

theorem spriteBit_cons (x y : Nat) (row : UInt8) (rows : List UInt8) (px py : Nat) :
    spriteBit x y (row :: rows) px py =
      ((decide (py = y) && rowBit x row px) || spriteBit x (y + 1) rows px py) := by
  unfold spriteBit
  rcases Nat.lt_trichotomy py y with above | here | below
  · have before : ¬ y ≤ py := by omega
    have before' : ¬ y + 1 ≤ py := by omega
    have other : ¬ py = y := by omega
    simp [before, before', other]
  · subst here
    rw [decide_eq_false (Nat.not_succ_le_self py)]
    simp
  · obtain ⟨k, rfl⟩ := Nat.exists_eq_add_of_le (Nat.succ_le_of_lt below)
    have other : ¬ y.succ + k = y := by omega
    have place : y.succ + k - y = k + 1 := by omega
    simp [other, place]
    omega

theorem getD_bits (row : UInt8) (k : Nat) :
    (bits row).getD k false = (decide (k < 8) && bit row k) := by
  by_cases near : k < 8
  · simp [bits, near]
  · simp [bits, near]

theorem bitOver_row {x y px py : Nat} (row : UInt8) (column : x < width) (place : px < width) :
    bitOver (x + y * width) ((bits row).take (width - x)) (px + py * width) =
      (decide (py = y) && rowBit x row px) := by
  rcases Nat.lt_trichotomy py y with above | rfl | below
  · have other : ¬ py = y := by omega
    have before : (py + 1) * width ≤ y * width := Nat.mul_le_mul_right width above
    rw [Nat.succ_mul] at before
    have ahead : ¬ x + y * width ≤ px + py * width := by omega
    simp [bitOver, ahead, other]
  · by_cases ahead : x ≤ px
    · obtain ⟨k, rfl⟩ := Nat.exists_eq_add_of_le ahead
      have offset : x + k + py * width - (x + py * width) = k := by omega
      have reach : k < width - x := by omega
      have taken : ((bits row).take (width - x)).getD k false = (bits row).getD k false := by
        rw [List.getD_eq_getElem?_getD, List.getD_eq_getElem?_getD, List.getElem?_take_of_lt reach]
      have start : x + py * width ≤ x + k + py * width := by omega
      simp [bitOver, rowBit, offset, taken, getD_bits, start, -List.getD_eq_getElem?_getD]
    · have behind : ¬ x + py * width ≤ px + py * width := by omega
      simp [bitOver, rowBit, ahead]
  · have other : ¬ py = y := by omega
    have after : (y + 1) * width ≤ py * width := Nat.mul_le_mul_right width below
    rw [Nat.succ_mul] at after
    rw [bitOver_behind]
    · simp [other]
    · rw [List.length_take]
      omega

theorem drawLine_laid (f : Framebuffer width height) {x y : Nat} (row : UInt8) (column : x < width)
    (line : y < height) :
    ∃ hit drawn, drawLine x y row f = .ok hit drawn ∧
      Laid f (fun px py => decide (py = y) && rowBit x row px) drawn hit := by
  unfold drawLine
  by_cases blank : row = 0
  · rw [if_pos blank]
    refine ⟨false, f, rfl, .blank fun px py _ _ => ?_⟩
    rw [blank, rowBit_zero, Bool.and_false]
  · rw [if_neg blank]
    have inside := row_end_le column line
    have fits : x + y * width + ((bits row).take (width - x)).length ≤ width * height := by
      rw [List.length_take, bits_length]
      omega
    refine ⟨_, _, drawRow_inside f row column line, ?_, ?_⟩
    · intro px py place _
      rw [← bitOver_row row column place]
      exact flatValue_flipRun fits (px + py * width)
    · rw [flipRun_hit_iff fits]
      constructor
      · rintro ⟨j, covered, lit⟩
        have start : x + y * width ≤ j := by
          simp only [bitOver, Bool.and_eq_true, decide_eq_true_eq] at covered
          exact covered.1
        have stop : j < x + y * width + ((bits row).take (width - x)).length := by
          by_contra behind
          rw [bitOver_behind (by omega)] at covered
          cases covered
        rw [List.length_take, bits_length] at stop
        obtain ⟨k, rfl⟩ := Nat.exists_eq_add_of_le start
        have place : x + k < width := by omega
        have flat : x + y * width + k = x + k + y * width := by omega
        rw [flat, bitOver_row row column place] at covered
        rw [flat] at lit
        exact ⟨x + k, y, place, line, covered, lit⟩
      · rintro ⟨px, py, place, _, covered, lit⟩
        rw [← bitOver_row row column place] at covered
        exact ⟨px + py * width, covered, lit⟩

theorem drawRows_laid {x y : Nat} (rows : List UInt8) (f : Framebuffer width height)
    (column : x < width) :
    ∃ hit drawn, drawRows x y rows f = .ok hit drawn ∧ Laid f (spriteBit x y rows) drawn hit := by
  induction rows generalizing y f with
  | nil =>
    refine ⟨false, f, rfl, .blank fun px py _ _ => ?_⟩
    rw [spriteBit, List.getD_nil, rowBit_zero, Bool.and_false]
  | cons row rows ih =>
    rw [drawRows]
    by_cases below : height ≤ y
    · rw [if_pos (by omega)]
      refine ⟨false, f, rfl, .blank fun px py _ line => ?_⟩
      have above : ¬ y ≤ py := by omega
      simp [spriteBit, above]
    · rw [if_neg (by omega)]
      obtain ⟨hit, middle, drew, laid⟩ := drawLine_laid f row column (y := y) (by omega)
      obtain ⟨later, drawn, drewRest, laidRest⟩ := ih (y := y + 1) middle
      refine ⟨hit || later, drawn, ?_, laid.append laidRest ?_ (spriteBit_cons x y row rows)⟩
      · rw [Attempt.bind_of_ok drew, ← Int.natCast_succ, Attempt.bind_of_ok drewRest,
          Attempt.pure_apply]
      · intro px py here
        rw [Bool.and_eq_true, decide_eq_true_eq] at here
        have above : ¬ y + 1 ≤ py := by omega
        simp [spriteBit, above]

/-- Drawing a sprite that begins inside the picture turns over the pixels under its bits. -/
theorem draw_laid {x : Nat} (y : Nat) (rows : List UInt8) (f : Framebuffer width height)
    (column : x < width) :
    ∃ hit drawn, draw x y rows f = .ok hit drawn ∧ drawn.dirty = true ∧
      Laid f (spriteBit x y rows) drawn hit := by
  obtain ⟨hit, drawn, drew, laid⟩ := drawRows_laid (y := y) rows f column
  refine ⟨hit, { drawn with dirty := true }, ?_, rfl, laid.pixels, laid.hit⟩
  rw [draw, Attempt.bind_of_ok drew, Attempt.bind_of_ok (Attempt.modify_apply _ drawn),
    Attempt.pure_apply]

/-! ### Pictures of zeros and ones -/

/-- One picture is another with a sprite drawn over it at `(x, y)`, pixel by pixel: a pixel under
the sprite is combined with its bit by exclusive or, all others are as they were, and the answer
tells whether a pixel was turned off. -/
structure Drawn (f : Framebuffer width height) (x y : Nat) (rows : List UInt8)
    (drawn : Framebuffer width height) (hit : Bool) : Prop where
  inside : ∀ px py, x ≤ px → px < min (x + 8) width → y ≤ py →
    ∀ row : py - y < rows.length, py < height →
      drawn.valueAt px py =
        f.valueAt px py ^^^ (if rows[py - y].toNat.testBit (7 - (px - x)) then 1 else 0)
  outside : ∀ px py, px < width → py < height →
    ¬ (x ≤ px ∧ px < x + 8 ∧ y ≤ py ∧ py < y + rows.length) → drawn.valueAt px py = f.valueAt px py
  dirty : drawn.dirty = true
  hit : hit = true ↔
    ∃ px py, px < width ∧ py < height ∧ f.valueAt px py = 1 ∧ drawn.valueAt px py = 0

theorem InRange.valueAt (range : f.InRange) (x y : Nat) :
    f.valueAt x y = 0 ∨ f.valueAt x y = 1 := by
  change f.flatValue (x + y * width) = 0 ∨ f.flatValue (x + y * width) = 1
  by_cases bound : x + y * width < width * height
  · rw [flatValue_of_lt bound]
    exact range ⟨_, bound⟩
  · exact .inl (flatValue_of_ge bound)

theorem spriteBit_of_row {x y px py : Nat} {rows : List UInt8} (column : x ≤ px)
    (near : px < x + 8) (line : y ≤ py) (row : py - y < rows.length) :
    spriteBit x y rows px py = rows[py - y].toNat.testBit (7 - (px - x)) := by
  simp [spriteBit, rowBit, bit, column, near, line, row]

theorem spriteBit_beside {x y px py : Nat} {rows : List UInt8}
    (beside : ¬ (x ≤ px ∧ px < x + 8 ∧ y ≤ py ∧ py < y + rows.length)) :
    spriteBit x y rows px py = false := by
  by_cases line : y ≤ py ∧ py < y + rows.length
  · have column : ¬ (x ≤ px ∧ px < x + 8) := by omega
    have away : rowBit x (rows.getD (py - y) 0) px = false := by
      rw [rowBit, ← Bool.decide_and, decide_eq_false column, Bool.false_and]
    rw [spriteBit, away, Bool.and_false]
  · by_cases above : y ≤ py
    · have none : rows.getD (py - y) 0 = 0 := by
        rw [List.getD_eq_getElem?_getD, List.getElem?_eq_none (by omega), Option.getD_none]
      rw [spriteBit, none, rowBit_zero, Bool.and_false]
    · rw [spriteBit, decide_eq_false above, Bool.false_and]

theorem Laid.drawn {x y : Nat} {rows : List UInt8} {drawn : Framebuffer width height} {hit : Bool}
    (laid : Laid f (spriteBit x y rows) drawn hit) (range : f.InRange)
    (dirty : drawn.dirty = true) : Drawn f x y rows drawn hit where
  inside px py left right top row bottom := by
    rw [laid.pixels px py (by omega) bottom, spriteBit_of_row left (by omega) top row]
  outside px py column line beside := by
    rw [laid.pixels px py column line, spriteBit_beside beside]
    simp
  dirty := dirty
  hit := by
    rw [laid.hit]
    -- a pixel goes off exactly if it was on and lies under a bit
    refine exists_congr fun px => exists_congr fun py => and_congr_right fun column =>
      and_congr_right fun line => ?_
    rw [laid.pixels px py column line]
    rcases range.valueAt px py with off | on
    · rw [off]
      simp
    · rw [on]
      cases spriteBit x y rows px py <;> decide

end Framebuffer

namespace Machine

variable {m : Machine}

def bytesAtIndex (m : Machine) (n : Nat) : List UInt8 :=
  (List.range n).map fun k => m.memory.cells.getD (m.registers.index + k) 0

theorem extract_eq_bytesAtIndex {n : Nat} (inside : m.registers.index + n ≤ m.memory.size) :
    (m.memory.cells.extract m.registers.index (m.registers.index + n)).toList =
      m.bytesAtIndex n := by
  have size : m.registers.index + n ≤ m.memory.cells.size := inside
  apply List.ext_getElem
  · simp [bytesAtIndex]
    omega
  · intro k here there
    have bound : k < n := by simpa [bytesAtIndex] using there
    have place : m.registers.index + k < m.memory.cells.size := by omega
    simp [bytesAtIndex, Array.getD, place]

theorem executeDraw_drawn {i : Instruction} (size : m.memory.size = memorySize)
    (binary : m.screen.InRange) (inside : m.registers.index + i.n ≤ memorySize) :
    ∃ screen hit, executeDraw i m = .ok ⟨⟩ ({ m with screen }.setFlag hit) ∧
      m.screen.Drawn (m.spritePlace i).1 (m.spritePlace i).2 (m.bytesAtIndex i.n) screen hit := by
  rw [← size] at inside
  have column : (m.spritePlace i).1 < screenWidth := Nat.mod_lt _ (by decide)
  obtain ⟨hit, screen, drew, dirty, laid⟩ :=
    Framebuffer.draw_laid (m.spritePlace i).2 (m.bytesAtIndex i.n) m.screen column
  refine ⟨screen, hit, ?_, laid.drawn binary dirty⟩
  have shown : onScreen (Framebuffer.draw (m.spritePlace i).1 (m.spritePlace i).2
      (m.bytesAtIndex i.n)) m = .ok hit { m with screen } :=
    Attempt.within_of_ok drew
  rw [executeDraw, Attempt.get_bind, Memory.block_of_inBounds inside,
    extract_eq_bytesAtIndex inside]
  exact (Attempt.bind_of_ok shown).trans (Attempt.modify_apply _ _)

theorem execute_of_draw {i : Instruction} (draw : i.operation = .draw) (m : Machine) :
    execute i m = executeDraw i m := by
  unfold execute
  -- the kernel would unfold the drawing before it finds the branch
  generalize executeDraw i = drawing
  rw [Attempt.get_bind]
  simp only [draw]

/-- Sprites are drawn by exclusive or, pixel by pixel, clipped at the right and the lower edge. So a
draw instruction draws the bytes at the index at the place that its registers name before it, and
then sets the flag. -/
theorem draw_combines_pixelwise :
    (∀ {width height : Nat} (f : Framebuffer width height) (x y : Nat) (rows : List UInt8),
      f.InRange → x < width →
      ∃ hit drawn, Framebuffer.draw x y rows f = .ok hit drawn ∧ f.Drawn x y rows drawn hit) ∧
    ∀ (m : Machine) (i : Instruction), i.operation = .draw → m.memory.size = memorySize →
      m.screen.InRange → m.registers.index + i.n ≤ memorySize →
      ∃ screen hit, execute i m = .ok ⟨⟩ ({ m with screen }.setFlag hit) ∧
        m.screen.Drawn (m.registers.get i.x % 64) (m.registers.get i.y % 32)
          (m.bytesAtIndex i.n) screen hit ∧
        ({ m with screen }.setFlag hit).registers.get flagRegister = if hit then 1 else 0 := by
  constructor
  · intro width height f x y rows binary column
    obtain ⟨hit, drawn, drew, dirty, laid⟩ := Framebuffer.draw_laid y rows f column
    exact ⟨hit, drawn, drew, laid.drawn binary dirty⟩
  · intro m i draw size binary inside
    obtain ⟨screen, hit, drew, drawn⟩ := executeDraw_drawn size binary inside
    exact ⟨screen, hit, (execute_of_draw draw m).trans drew, drawn, Registers.get_setFlag _ hit⟩

/-- A sprite over the lower right corner, and one that the flag register places. -/
theorem draw_combines_pixelwise_past_corner :
    (∃ hit drawn, Framebuffer.draw (4 : Nat) (1 : Nat) [0xFF, 0x00, 0x81] ({} : Framebuffer 6 3) =
        .ok hit drawn ∧ Framebuffer.Drawn {} 4 1 [0xFF, 0x00, 0x81] drawn hit) ∧
      ∃ screen hit, execute ⟨.draw, 0xDFF5⟩ new = .ok ⟨⟩ ({ new with screen }.setFlag hit) ∧
        new.screen.Drawn (new.registers.get flagRegister % 64) (new.registers.get flagRegister % 32)
          (new.bytesAtIndex 5) screen hit ∧
        ({ new with screen }.setFlag hit).registers.get flagRegister = if hit then 1 else 0 := by
  constructor
  · exact draw_combines_pixelwise.1 {} 4 1 _ (.clear {}) (by decide)
  · have range := InRange.new {} (.cycle 0 [])
    exact draw_combines_pixelwise.2 new ⟨.draw, 0xDFF5⟩ rfl range.memory range.screen (by decide)

end Machine

end ChipEight
