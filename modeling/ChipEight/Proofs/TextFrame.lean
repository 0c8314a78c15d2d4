import ChipEight.Monitor
import ChipEight.Proofs.Redrawing
import ChipEight.Proofs.Repainting
import ChipEight.Proofs.TextScreen

/-!
The text of a picture has a line for every row. A picture does not tell a cell that holds two from
one that holds one, but no cell ever holds more than one.
-/

namespace ChipEight

namespace Monitor

variable {σ : Type} {P : σ → Prop} {part : σ}

theorem reply_kept {outcome : Except Failure (Value × σ)} (holds : P part)
    (kept : ∀ answer after, outcome = .ok (answer, after) → P after) :
    P (reply part outcome).2 := by
  rcases outcome with failure | ⟨answer, after⟩
  · exact holds
  · exact kept answer after rfl

theorem change_kept {changed : Except Failure σ} (holds : P part)
    (kept : ∀ after, changed = .ok after → P after) : P (change part changed).2 := by
  refine reply_kept holds fun answer after done => ?_
  cases changed with
  | ok part => exact kept after (by cases done; rfl)
  | error failure => cases done

end Monitor

namespace Framebuffer

variable {width height : Nat} {f g : Framebuffer width height}

namespace InRange

theorem setAll (range : f.InRange) (cells : List (Fin (width * height))) (lit : Bool) :
    (f.setAll cells lit).InRange :=
  List.foldlRecOn (motive := fun f : Framebuffer width height => f.InRange) cells _ range
    fun _ range i _ => range.turn i lit

theorem clearAt {s : Sides} (done : f.clearAt s = .ok g) : g.InRange := by
  unfold Framebuffer.clearAt at done
  split at done
  · cases done
  · cases done
    exact .clear f

theorem setAt (range : f.InRange) {x y : Value} {lit : Bool} {s : Sides}
    (done : f.setAt x y lit s = .ok g) : g.InRange := by
  unfold Framebuffer.setAt at done
  dsimp only [bind, Except.bind, pure, Except.pure] at done
  split at done
  · cases done
  -- one cell, or all cells that a place names
  · split at done <;> split at done
    all_goals first
      | cases done; done
      | cases done
        exact range.setAll _ lit

theorem layRow (range : f.InRange) {across room x y : Number} {row : Value} {hit : Bool}
    (done : f.layRow across room x y row = .ok (g, hit)) : g.InRange := by
  unfold Framebuffer.layRow at done
  dsimp only [bind, Except.bind] at done
  -- a run of cells is reached if neither the row nor its place is refused
  repeat' split at done
  all_goals first
    | exact range.drawRun done
    | cases done

theorem layRows (range : f.InRange) (down : Value) (across room x y : Number) (k : Nat)
    (hit : Bool) (rows : List Value) :
    (f.layRows down across room x y k hit rows).1.InRange := by
  induction rows generalizing f k hit with
  | nil => exact range
  | cons row rows ih =>
    unfold Framebuffer.layRows
    dsimp only
    split
    · exact range
    · exact range
    · split
      · exact ih range _ _
      · split
        · exact ih (range.layRow ‹_›) _ _
        · exact range

theorem drawAt (range : f.InRange) (x y rows : Value) (s : Sides) :
    (f.drawAt x y rows s).1.InRange := by
  unfold Framebuffer.drawAt
  split
  · exact range
  · dsimp only
    split
    · rw [Prod.fst_swap, Attempt.reply_snd]
      exact InRange.draw _ _ _ f range
    · exact range.layRows _ _ _ _ _ _ _ _

theorem obey (range : f.InRange) {word : String} {args : List Value} {s : Sides}
    {r : Reply (Framebuffer width height)} (obeyed : f.obey word args s = some r) :
    r.2.InRange := by
  unfold Framebuffer.obey at obeyed
  dsimp only at obeyed
  split at obeyed <;> cases obeyed
  · exact Monitor.change_kept range fun _ done => clearAt done
  · refine Monitor.reply_kept range fun _ _ done => ?_
    cases read : f.getAt (Monitor.argument args 0) (Monitor.argument args 1) s with
    | ok cell =>
      rw [read] at done
      cases done
      exact range
    | error failure =>
      rw [read] at done
      cases done
  · exact Monitor.change_kept range fun _ done => range.setAt done
  · exact range.drawAt _ _ _ s
  · exact range

end InRange

def obeyAll (f : Framebuffer width height) (commands : List (String × List Value)) :
    Framebuffer width height :=
  commands.foldl (fun f (word, args) => ((f.obey word args).map Prod.snd).getD f) f

theorem InRange.obeyAll (range : f.InRange) (commands : List (String × List Value)) :
    (f.obeyAll commands).InRange := by
  refine List.foldlRecOn (motive := fun f : Framebuffer width height => f.InRange) commands _ range
    fun f range (word, args) _ => ?_
  cases obeyed : f.obey word args with
  | none => simpa [obeyed] using range
  | some r => simpa [obeyed] using range.obey obeyed

end Framebuffer

namespace Picture

/-- The pieces of a text between its line ends. -/
def linesOf : List Char → List (List Char)
  | [] => [[]]
  | '\r' :: '\n' :: text => [] :: linesOf text
  | c :: text =>
    match linesOf text with
    | [] => [[c]]
    | line :: lines => (c :: line) :: lines

theorem linesOf_plain {line : List Char} (plain : '\r' ∉ line) : linesOf line = [line] := by
  induction line with
  | nil => rfl
  | cons c line ih =>
    rw [List.mem_cons, not_or] at plain
    rw [linesOf, ih plain.2]
    rintro rest rfl rfl
    exact plain.1 rfl

theorem linesOf_append {line : List Char} (plain : '\r' ∉ line) (text : List Char) :
    linesOf (line ++ lineEnd.toList ++ text) = line :: linesOf text := by
  induction line with
  | nil => rfl
  | cons c line ih =>
    rw [List.mem_cons, not_or] at plain
    rw [List.cons_append, List.cons_append, linesOf, ih plain.2]
    rintro rest rfl _
    exact plain.1 rfl

theorem linesOf_intercalate {lines : List (List Char)} (nonempty : lines ≠ [])
    (plain : ∀ line ∈ lines, '\r' ∉ line) :
    linesOf (lineEnd.toList.intercalate lines) = lines := by
  induction lines with
  | nil => exact absurd rfl nonempty
  | cons line lines ih =>
    rw [List.forall_mem_cons] at plain
    cases lines with
    | nil =>
      rw [List.intercalate_singleton]
      exact linesOf_plain plain.1
    | cons next rest =>
      rw [List.intercalate_cons_cons, linesOf_append plain.1, ih (List.cons_ne_nil _ _) plain.2]

variable {width height : Nat}

theorem length_glyphs (f : Framebuffer width height) : (glyphs f).length = height := by
  simp [glyphs, Framebuffer.rows]

theorem glyph_cases (f : Framebuffer width height) :
    ∀ line ∈ glyphs f, line.length = width ∧ ∀ c ∈ line, c = onGlyph ∨ c = offGlyph := by
  intro line member
  obtain ⟨row, listed, rfl⟩ := List.mem_map.mp member
  obtain ⟨y, _, rfl⟩ := List.mem_map.mp listed
  refine ⟨by simp [Framebuffer.row], fun c place => ?_⟩
  obtain ⟨cell, _, rfl⟩ := List.mem_map.mp place
  split
  · exact .inl rfl
  · exact .inr rfl

theorem linesOf_frame (f : Framebuffer width height) (high : 0 < height) :
    linesOf (frame f).toList = glyphs f := by
  have nonempty : glyphs f ≠ [] := List.ne_nil_of_length_pos (by rwa [length_glyphs])
  rw [toList_frame]
  refine linesOf_intercalate nonempty fun line member place => ?_
  rcases (glyph_cases f line member).2 _ place with on | off
  · exact absurd on (by decide)
  · exact absurd off (by decide)

theorem glyph_at {f : Framebuffer width height} (range : f.InRange) {x y : Nat}
    (column : x < width) (row : y < height) :
    ∃ chars c, (glyphs f)[y]? = some chars ∧ chars[x]? = some c ∧
      (c = onGlyph ↔ f.valueAt x y = 1) := by
  have distinct : offGlyph ≠ onGlyph := by decide
  refine ⟨(f.row y).map fun cell => if cell ≠ 0 then onGlyph else offGlyph,
    if f.valueAt x y ≠ 0 then onGlyph else offGlyph,
    by simp [glyphs, Framebuffer.rows, row], by simp [Framebuffer.row, column], ?_⟩
  rcases range.valueAt x y with off | on
  · simp [off, distinct]
  · simp [on]

theorem cells_of_glyphs {f g : Framebuffer width height} (range : f.InRange) (range' : g.InRange)
    (same : glyphs f = glyphs g) : f.cells = g.cells := by
  refine Framebuffer.cells_of_pixels fun x y column row => ?_
  obtain ⟨line, c, listed, place, lit⟩ := glyph_at range column row
  obtain ⟨_, _, listed', place', lit'⟩ := glyph_at range' column row
  obtain rfl := Option.some.inj (listed.symm.trans ((congrArg (·[y]?) same).trans listed'))
  obtain rfl := Option.some.inj (place.symm.trans place')
  have together : f.valueAt x y = 1 ↔ g.valueAt x y = 1 := lit.symm.trans lit'
  rcases range.valueAt x y with off | on
  · rcases range'.valueAt x y with off' | on'
    · rw [off, off']
    · rw [together.mpr on', on']
  · rw [on, together.mp on]

/-- Whatever has been done to a picture with rows, its text cut at the line ends has a line for each
row and a character for each of its pixels, the on glyph exactly if the pixel is on. So the text
tells the picture. -/
theorem frame_encodes_picture (high : 1 ≤ height) (commands others : List (String × List Value)) :
    let f := Framebuffer.obeyAll ({} : Framebuffer width height) commands
    let g := Framebuffer.obeyAll ({} : Framebuffer width height) others
    let lines := linesOf (frame f).toList
    lines.length = height ∧
      (∀ line ∈ lines, line.length = width ∧ ∀ c ∈ line, c = onGlyph ∨ c = offGlyph) ∧
      (∀ x y, x < width → y < height → ∃ chars c, lines[y]? = some chars ∧ chars[x]? = some c ∧
        (c = onGlyph ↔ f.get x y = .ok 1)) ∧
      (frame f = frame g ↔ f.cells = g.cells) := by
  intro f g lines
  have blank : ({} : Framebuffer width height).InRange := .clear {}
  have range : f.InRange := blank.obeyAll commands
  have range' : g.InRange := blank.obeyAll others
  have cut : lines = glyphs f := linesOf_frame f high
  refine ⟨?_, ?_, fun x y column row => ?_, fun same => ?_, fun same => ?_⟩
  · rw [cut, length_glyphs]
  · rw [cut]
    exact glyph_cases f
  · rw [cut, Framebuffer.get_inside f column row]
    simpa using glyph_at range column row
  · refine cells_of_glyphs range range' ?_
    rw [← linesOf_frame f high, same, linesOf_frame g high]
  · have row : f.row = g.row :=
      funext fun y => by simp only [Framebuffer.row, Framebuffer.valueAt, same]
    rw [frame, frame, Framebuffer.rows, Framebuffer.rows, row]

/-- A sprite past the right edge, of whose rows the second is refused, and a pixel outside. -/
theorem frame_encodes_picture_after_refused_row :
    let commands : List (String × List Value) :=
      [("draw", [.whole 1, .whole 0, .list [.whole 0xC0, .text "row"]]),
        ("set", [.whole 9, .whole 9, .bool true])]
    let f := Framebuffer.obeyAll ({} : Framebuffer 3 2) commands
    1 ≤ 2 ∧ (linesOf (frame f).toList).length = 2 ∧ f.get 2 0 = .ok 1 ∧
      frame f ≠ frame ({} : Framebuffer 3 2) := by
  intro commands f
  obtain ⟨length, _, _, same⟩ :=
    @frame_encodes_picture 3 2 (by decide) commands []
  have lit : f.get 2 0 = .ok 1 := rfl
  refine ⟨by decide, length, lit, fun equal => ?_⟩
  have cells : f.cells = ({} : Framebuffer 3 2).cells := same.mp equal
  exact absurd cells (by decide)

end Picture

end ChipEight
