import ChipEight.Proofs.Pixels

/-!
After many sprites a pixel is turned over if an odd number of them has a bit there. So their order
is irrelevant, and a sprite that is drawn twice is gone.
-/

namespace ChipEight

open Framebuffer

structure Sprite (width : Nat) where
  x : Fin width
  y : Nat
  rows : List UInt8

namespace Framebuffer

variable {width height : Nat} {f g h : Framebuffer width height} {a b : Nat → Nat → Bool}

def Turned (f : Framebuffer width height) (marks : Nat → Nat → Bool)
    (g : Framebuffer width height) : Prop :=
  ∀ px py, px < width → py < height →
    g.valueAt px py = f.valueAt px py ^^^ (if marks px py then 1 else 0)

theorem turned_refl (f : Framebuffer width height) : Turned f (fun _ _ => false) f := by
  intro px py _ _
  simp

theorem Turned.trans (first : Turned f a g) (second : Turned g b h) :
    Turned f (fun px py => a px py ^^ b px py) h := by
  intro px py column line
  have combined : ∀ p q : Bool, (if p then (1 : UInt8) else 0) ^^^ (if q then 1 else 0) =
      if p ^^ q then 1 else 0 := by
    decide
  rw [second px py column line, first px py column line, UInt8.xor_assoc, combined]

theorem eq_of_cells (cells : f.cells = g.cells) (dirty : f.dirty = g.dirty) : f = g := by
  cases f
  cases g
  cases cells
  cases dirty
  rfl

theorem Turned.cells (one : Turned f a g) (other : Turned f b h)
    (same : ∀ px py, a px py = b px py) : g.cells = h.cells :=
  cells_of_pixels fun px py column line => by
    rw [one px py column line, other px py column line, same px py]

end Framebuffer

namespace Sprite

variable {width height : Nat} {f : Framebuffer width height} {s : Sprite width}
  {sprites others : List (Sprite width)}

def draw (s : Sprite width) : Attempt (Framebuffer width height) Bool :=
  Framebuffer.draw s.x s.y s.rows

def drawAll (sprites : List (Sprite width)) : Attempt (Framebuffer width height) (List Bool) :=
  sprites.mapM draw

def covers (s : Sprite width) (px py : Nat) : Bool :=
  spriteBit s.x s.y s.rows px py

/-- An odd number of sprites has a bit over a pixel on. -/
def oddly (sprites : List (Sprite width)) (px py : Nat) : Bool :=
  sprites.countP (·.covers px py) % 2 = 1

def IsLit (s : Sprite width) (height : Nat) : Prop :=
  ∃ (r k : Nat) (row : r < s.rows.length),
    k < 8 ∧ s.rows[r].toNat.testBit (7 - k) ∧ s.x + k < width ∧ s.y + r < height

theorem oddly_cons (s : Sprite width) (sprites : List (Sprite width)) (px py : Nat) :
    oddly (s :: sprites) px py = (s.covers px py ^^ oddly sprites px py) := by
  unfold oddly
  rw [List.countP_cons]
  cases s.covers px py with
  | false => simp
  | true =>
    rw [if_pos rfl, Bool.true_xor, ← decide_not, decide_eq_decide]
    omega

theorem oddly_perm (order : sprites.Perm others) (px py : Nat) :
    oddly sprites px py = oddly others px py := by
  rw [oddly, order.countP_eq, oddly]

theorem oddly_twice (before between after : List (Sprite width)) (s : Sprite width) (px py : Nat) :
    oddly (before ++ s :: between ++ s :: after) px py =
      oddly (before ++ between ++ after) px py := by
  -- both may be moved to the front, where they turn every pixel over and back
  have front : (before ++ s :: between ++ s :: after).Perm
      (s :: s :: (before ++ between ++ after)) := by
    simp only [List.append_assoc, List.cons_append]
    refine List.perm_middle.trans (.cons s ?_)
    rw [← List.append_assoc, ← List.append_assoc]
    exact List.perm_middle
  rw [oddly_perm front, oddly_cons, oddly_cons, ← Bool.xor_assoc, Bool.xor_self, Bool.false_xor]

theorem exists_covers_iff (s : Sprite width) (height : Nat) :
    (∃ px py, px < width ∧ py < height ∧ s.covers px py) ↔ s.IsLit height := by
  constructor
  · rintro ⟨px, py, column, line, covered⟩
    have near : s.x.val ≤ px ∧ px < s.x + 8 ∧ s.y ≤ py ∧ py < s.y + s.rows.length := by
      by_contra beside
      rw [covers, spriteBit_beside beside] at covered
      cases covered
    obtain ⟨left, right, top, bottom⟩ := near
    rw [covers, spriteBit_of_row left right top (by omega)] at covered
    exact ⟨py - s.y, px - s.x, by omega, by omega, covered, by omega, by omega⟩
  · rintro ⟨r, k, row, near, on, column, line⟩
    refine ⟨s.x + k, s.y + r, column, line, ?_⟩
    rw [covers, spriteBit_of_row (by omega) (by omega) (by omega) (by omega)]
    simpa using on

theorem draw_laid (s : Sprite width) (f : Framebuffer width height) :
    ∃ hit drawn, s.draw f = .ok hit drawn ∧ drawn.dirty = true ∧ Laid f s.covers drawn hit :=
  Framebuffer.draw_laid s.y s.rows f s.x.isLt

/-- A pixel is turned over by sprites that are drawn one after the other if an odd number of them has
a bit there. -/
theorem drawAll_turned (sprites : List (Sprite width)) (f : Framebuffer width height) :
    ∃ hits drawn, drawAll sprites f = .ok hits drawn ∧ Turned f (oddly sprites) drawn ∧
      drawn.dirty = (f.dirty || !sprites.isEmpty) := by
  induction sprites generalizing f with
  | nil => exact ⟨[], f, rfl, turned_refl f, by simp⟩
  | cons s sprites ih =>
    obtain ⟨hit, middle, drew, dirty, laid⟩ := s.draw_laid f
    obtain ⟨hits, drawn, drewRest, turned, kept⟩ := ih middle
    refine ⟨hit :: hits, drawn, ?_, ?_, ?_⟩
    · rw [drawAll] at drewRest ⊢
      rw [List.mapM_cons, Attempt.bind_of_ok drew, Attempt.bind_of_ok drewRest,
        Attempt.pure_apply]
    · have whole := Turned.trans laid.pixels turned
      intro px py column line
      rw [oddly_cons]
      exact whole px py column line
    · rw [kept, dirty]
      simp

theorem drawAll_perm {hits : List Bool} {drawn : Framebuffer width height}
    (order : sprites.Perm others) (drew : drawAll sprites f = .ok hits drawn) :
    ∃ hits', drawAll others f = .ok hits' drawn := by
  obtain ⟨_, _, same, turned, dirty⟩ := drawAll_turned sprites f
  rw [drew] at same
  cases same
  obtain ⟨hits', drawn', drew', turned', dirty'⟩ := drawAll_turned others f
  have cells : drawn.cells = drawn'.cells := turned.cells turned' (oddly_perm order)
  have marks : drawn.dirty = drawn'.dirty := by
    rw [dirty, dirty', order.isEmpty_eq]
  exact ⟨hits', eq_of_cells cells marks ▸ drew'⟩

theorem drawAll_twice (before between after : List (Sprite width)) (s : Sprite width)
    (f : Framebuffer width height) :
    ∃ hits hits' drawn drawn', drawAll (before ++ s :: between ++ s :: after) f = .ok hits drawn ∧
      drawAll (before ++ between ++ after) f = .ok hits' drawn' ∧ drawn.cells = drawn'.cells := by
  obtain ⟨hits, drawn, drew, turned, _⟩ := drawAll_turned (before ++ s :: between ++ s :: after) f
  obtain ⟨hits', drawn', drew', turned', _⟩ := drawAll_turned (before ++ between ++ after) f
  exact ⟨hits, hits', drawn, drawn', drew, drew',
    turned.cells turned' (oddly_twice before between after s)⟩

theorem low_bit_turned {v : UInt8} (off : v &&& 1 = 0) : (v ^^^ 1) &&& 1 ≠ 0 := by
  have even : v.toNat % 2 = 0 := by
    simpa [Nat.and_one_is_mod] using congrArg UInt8.toNat off
  intro still
  have odd : (v.toNat ^^^ 1) % 2 = 0 := by
    simpa [Nat.and_one_is_mod] using congrArg UInt8.toNat still
  have turned := Nat.xor_mod_two_eq_one (a := v.toNat) (b := 1)
  omega

theorem hit_or_hit_iff {once twice : Framebuffer width height} {first second : Bool}
    (laid : Laid f s.covers once first) (again : Laid once s.covers twice second) :
    (first || second) = true ↔ s.IsLit height := by
  rw [Bool.or_eq_true, laid.hit, again.hit, ← exists_covers_iff]
  constructor
  · rintro (⟨px, py, column, line, covered, _⟩ | ⟨px, py, column, line, covered, _⟩) <;>
      exact ⟨px, py, column, line, covered⟩
  · rintro ⟨px, py, column, line, covered⟩
    by_cases off : f.valueAt px py &&& 1 = 0
    · refine .inr ⟨px, py, column, line, covered, ?_⟩
      rw [laid.pixels px py column line, if_pos covered]
      exact low_bit_turned off
    · exact .inl ⟨px, py, column, line, covered, off⟩

theorem draw_twice (s : Sprite width) (f : Framebuffer width height) :
    ∃ first second once twice, s.draw f = .ok first once ∧ s.draw once = .ok second twice ∧
      twice.cells = f.cells ∧ ((first || second) = true ↔ s.IsLit height) := by
  obtain ⟨first, once, drew, _, laid⟩ := s.draw_laid f
  obtain ⟨second, twice, drewAgain, _, again⟩ := s.draw_laid once
  have back : twice.cells = f.cells :=
    (Turned.trans laid.pixels again.pixels).cells (turned_refl f) fun px py => Bool.xor_self _
  exact ⟨first, second, once, twice, drew, drewAgain, back, hit_or_hit_iff laid again⟩

/-- Sprites turn over the pixels under an odd number of them and may be drawn in any order, two equal
ones cancel, and drawing one twice in a row restores the picture and hits something exactly if the
sprite has a bit on inside. -/
theorem draws_commute_and_cancel {width height : Nat} (f : Framebuffer width height) :
    (∀ sprites : List (Sprite width), ∃ hits drawn, drawAll sprites f = .ok hits drawn ∧
      Turned f (oddly sprites) drawn ∧
      ∀ others, sprites.Perm others → ∃ hits', drawAll others f = .ok hits' drawn) ∧
    (∀ (before between after : List (Sprite width)) (s : Sprite width),
      ∃ hits hits' drawn drawn',
        drawAll (before ++ s :: between ++ s :: after) f = .ok hits drawn ∧
        drawAll (before ++ between ++ after) f = .ok hits' drawn' ∧ drawn.cells = drawn'.cells) ∧
    ∀ s : Sprite width, ∃ first second once twice,
      s.draw f = .ok first once ∧ s.draw once = .ok second twice ∧ twice.cells = f.cells ∧
        ((first || second) = true ↔ s.IsLit height) := by
  refine ⟨fun sprites => ?_, fun before between after s => drawAll_twice before between after s f,
    fun s => s.draw_twice f⟩
  obtain ⟨hits, drawn, drew, turned, _⟩ := drawAll_turned sprites f
  exact ⟨hits, drawn, drew, turned, fun others order => drawAll_perm order drew⟩

/-- Two sprites that overlap, one of them past the lower right corner. -/
theorem draws_commute_and_cancel_at_corner :
    (∃ hits hits' drawn,
      drawAll [⟨4, 1, [0xFF, 0x00, 0x81]⟩, ⟨1, 0, [0x3C, 0xFF]⟩] ({} : Framebuffer 6 3) =
        .ok hits drawn ∧
      drawAll [⟨1, 0, [0x3C, 0xFF]⟩, ⟨4, 1, [0xFF, 0x00, 0x81]⟩] {} = .ok hits' drawn) ∧
    ∃ first second once twice, draw ⟨4, 1, [0xFF, 0x00, 0x81]⟩ ({} : Framebuffer 6 3) =
        .ok first once ∧ draw ⟨4, 1, [0xFF, 0x00, 0x81]⟩ once = .ok second twice ∧
      twice.cells = ({} : Framebuffer 6 3).cells ∧ (first || second) = true := by
  constructor
  · obtain ⟨hits, drawn, drew, _, any⟩ := (draws_commute_and_cancel ({} : Framebuffer 6 3)).1
      [⟨4, 1, [0xFF, 0x00, 0x81]⟩, ⟨1, 0, [0x3C, 0xFF]⟩]
    obtain ⟨hits', drew'⟩ := any _ (.swap _ _ [])
    exact ⟨hits, hits', drawn, drew, drew'⟩
  · obtain ⟨first, second, once, twice, drew, again, back, hit⟩ :=
      (draws_commute_and_cancel ({} : Framebuffer 6 3)).2.2 ⟨4, 1, [0xFF, 0x00, 0x81]⟩
    have lit : IsLit (⟨4, 1, [0xFF, 0x00, 0x81]⟩ : Sprite 6) 3 :=
      ⟨0, 0, by decide, by decide, by decide, by decide, by decide⟩
    exact ⟨first, second, once, twice, drew, again, back, hit.mpr lit⟩

end Sprite

end ChipEight
