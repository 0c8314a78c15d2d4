import ChipEight.Terminal.Bell
import ChipEight.Terminal.Picture
import Mathlib.Data.List.Induction

/-!
A terminal that follows the few controls that a session writes. A frame that is written from home
covers its own rows and leaves the rest as it was.
-/

namespace ChipEight

inductive ControlProgress where
  | none
  | escape
  | sequence (parameters : List Char)

structure TextScreen where
  glyph : Nat → Nat → Char := fun _ _ => ' '
  line : Nat := 0
  column : Nat := 0
  progress : ControlProgress := .none

namespace TextScreen

def print (t : TextScreen) (c : Char) : TextScreen :=
  { t with
    glyph := fun line column => if line = t.line ∧ column = t.column then c else t.glyph line column
    column := t.column + 1 }

def obey (t : TextScreen) (parameters : List Char) (final : Char) : TextScreen :=
  if parameters = [] ∧ final = 'H' then { t with line := 0, column := 0 }
  else if parameters = ['2'] ∧ final = 'J' then { t with glyph := fun _ _ => ' ' }
  else t

def receive (t : TextScreen) (c : Char) : TextScreen :=
  match t.progress with
  | .none =>
    if c = '\x1b' then { t with progress := .escape }
    else if c = '\r' then { t with column := 0 }
    else if c = '\n' then { t with line := t.line + 1 }
    else if c < ' ' then t
    else t.print c
  | .escape => { t with progress := if c = '[' then .sequence [] else .none }
  | .sequence parameters =>
    if '@' ≤ c ∧ c ≤ '~' then { t.obey parameters c with progress := .none }
    else { t with progress := .sequence (parameters ++ [c]) }

def write (t : TextScreen) (text : String) : TextScreen :=
  text.toList.foldl receive t

variable {t : TextScreen}

theorem write_append (t : TextScreen) (first rest : String) :
    t.write (first ++ rest) = (t.write first).write rest := by
  rw [write, String.toList_append, List.foldl_append]
  rfl

theorem write_home (ready : t.progress = .none) :
    t.write Picture.home = { t with line := 0, column := 0 } := by
  rcases t with ⟨glyph, line, column, progress⟩
  cases ready
  rfl

theorem write_wipe (ready : t.progress = .none) :
    t.write Picture.wipe = { t with glyph := fun _ _ => ' ', line := 0, column := 0 } := by
  rcases t with ⟨glyph, line, column, progress⟩
  cases ready
  rfl

theorem write_lineEnd (ready : t.progress = .none) :
    t.write Picture.lineEnd = { t with line := t.line + 1, column := 0 } := by
  rcases t with ⟨glyph, line, column, progress⟩
  cases ready
  rfl

theorem write_ring (ready : t.progress = .none) : t.write Bell.ring = t := by
  rcases t with ⟨glyph, line, column, progress⟩
  cases ready
  rfl

def IsPlain (c : Char) : Prop :=
  ¬ c < ' '

theorem receive_plain (ready : t.progress = .none) {c : Char} (plain : IsPlain c) :
    t.receive c = t.print c := by
  have control {d : Char} (low : d < ' ') : c ≠ d := by
    rintro rfl
    exact plain low
  simp only [receive, ready]
  rw [if_neg (control (by decide)), if_neg (control (by decide)), if_neg (control (by decide)),
    if_neg plain]

theorem getElem?_concat {α : Type} (items : List α) (item : α) (place : Nat) :
    (items ++ [item])[place]? = if place = items.length then some item else items[place]? := by
  split
  · rename_i last
    rw [last, List.getElem?_concat_length]
  · rename_i other
    rw [List.getElem?_append]
    split
    · rfl
    · rw [List.getElem?_eq_none (by simp; omega), List.getElem?_eq_none (by omega)]

def overlaid (lines : List (List Char)) (glyph : Nat → Nat → Char) (line column : Nat) : Char :=
  (lines[line]?.bind (·[column]?)).getD (glyph line column)

theorem overlaid_nil (glyph : Nat → Nat → Char) : overlaid [] glyph = glyph := rfl

theorem overlaid_concat (lines : List (List Char)) (text : List Char) (glyph : Nat → Nat → Char) :
    overlaid (lines ++ [text]) glyph = fun line column =>
      if line = lines.length then (text[column]?).getD (overlaid lines glyph line column)
      else overlaid lines glyph line column := by
  funext line column
  rw [overlaid, getElem?_concat]
  split
  · rename_i last
    rw [last, Option.bind_some, overlaid, List.getElem?_eq_none (Nat.le_refl _)]
    rfl
  · rfl

theorem print_line (ready : t.progress = .none) (start : t.column = 0) {text : List Char}
    (plain : ∀ c ∈ text, IsPlain c) :
    text.foldl receive t =
      { t with
        glyph := fun line column =>
          if line = t.line then (text[column]?).getD (t.glyph line column) else t.glyph line column
        column := text.length } := by
  induction text using List.reverseRecOn with
  | nil => simp [start.symm]
  | append_singleton text c ih =>
    rw [List.forall_mem_append, List.forall_mem_singleton] at plain
    rw [List.foldl_append, ih plain.1, List.foldl_cons, List.foldl_nil,
      receive_plain (by exact ready) plain.2, print, List.length_append]
    congr 1
    funext line column
    rw [getElem?_concat]
    by_cases here : line = t.line
    · by_cases last : column = text.length <;> simp [here, last]
    · simp [here]

theorem print_lines (ready : t.progress = .none) (line : t.line = 0) (column : t.column = 0)
    {lines : List (List Char)} (plain : ∀ text ∈ lines, ∀ c ∈ text, IsPlain c) :
    (lines.flatMap (· ++ Picture.lineEnd.toList)).foldl receive t =
      { t with glyph := overlaid lines t.glyph, line := lines.length } := by
  induction lines using List.reverseRecOn with
  | nil => simp [line.symm, overlaid_nil]
  | append_singleton lines text ih =>
    rw [List.forall_mem_append, List.forall_mem_singleton] at plain
    rw [List.flatMap_append, List.foldl_append, ih plain.1, List.flatMap_singleton,
      List.foldl_append, print_line (by exact ready) (by exact column) plain.2, overlaid_concat,
      List.length_append]
    exact (write_lineEnd (by exact ready)).trans (by rw [column]; rfl)

theorem intercalate_concat {α : Type} (separator : List α) (lines : List (List α)) (text : List α) :
    separator.intercalate (lines ++ [text]) = lines.flatMap (· ++ separator) ++ text := by
  induction lines with
  | nil => simp
  | cons first lines ih =>
    have several : ∃ next rest, lines ++ [text] = next :: rest := by
      cases lines <;> exact ⟨_, _, rfl⟩
    obtain ⟨next, rest, order⟩ := several
    rw [List.cons_append, order, List.intercalate_cons_cons, ← order, ih, List.flatMap_cons,
      List.append_assoc (first ++ separator)]

theorem print_text (ready : t.progress = .none) (line : t.line = 0) (column : t.column = 0)
    {lines : List (List Char)} (plain : ∀ text ∈ lines, ∀ c ∈ text, IsPlain c) :
    ∃ line column, (Picture.lineEnd.toList.intercalate lines).foldl receive t =
      { t with glyph := overlaid lines t.glyph, line, column } := by
  rcases List.eq_nil_or_concat lines with rfl | ⟨lines, text, rfl⟩
  · exact ⟨t.line, t.column, by simp [overlaid_nil]⟩
  · rw [List.concat_eq_append] at plain ⊢
    rw [List.forall_mem_append, List.forall_mem_singleton] at plain
    refine ⟨lines.length, text.length, ?_⟩
    rw [intercalate_concat, List.foldl_append, print_lines ready line column plain.1,
      print_line (by exact ready) (by exact column) plain.2, overlaid_concat]

end TextScreen

namespace Picture

variable {width height : Nat}

def glyphs (f : Framebuffer width height) : List (List Char) :=
  f.rows.map fun row => row.map fun cell => if cell ≠ 0 then onGlyph else offGlyph

theorem toList_frame (f : Framebuffer width height) :
    (frame f).toList = lineEnd.toList.intercalate (glyphs f) := by
  have texts : (f.rows.map line).map String.toList = glyphs f := by
    simp only [glyphs, line, List.map_map, Function.comp_def, String.toList_ofList]
  rw [frame, String.toList_intercalate, texts]

theorem glyphs_plain (f : Framebuffer width height) :
    ∀ text ∈ glyphs f, ∀ c ∈ text, TextScreen.IsPlain c := by
  intro text mem c place
  obtain ⟨row, _, rfl⟩ := List.mem_map.mp mem
  obtain ⟨cell, _, rfl⟩ := List.mem_map.mp place
  unfold TextScreen.IsPlain
  split <;> decide

end Picture

namespace TextScreen

variable {width height : Nat} {f : Framebuffer width height} {t : TextScreen}

theorem overlaid_glyphs (f : Framebuffer width height) (glyph : Nat → Nat → Char)
    (line column : Nat) :
    overlaid (Picture.glyphs f) glyph line column =
      if line < height ∧ column < width then
        if f.valueAt column line ≠ 0 then Picture.onGlyph else Picture.offGlyph
      else glyph line column := by
  unfold overlaid Picture.glyphs Framebuffer.rows Framebuffer.row
  by_cases row : line < height <;> by_cases place : column < width <;> simp [row, place]

/-- Exactly a picture is on the screen. -/
def Shows (t : TextScreen) (f : Framebuffer width height) : Prop :=
  t.glyph = (({} : TextScreen).write (Picture.frame f)).glyph

def IsWithin (t : TextScreen) (width height : Nat) : Prop :=
  ∀ line column, ¬ (line < height ∧ column < width) → t.glyph line column = ' '

theorem write_frame (ready : t.progress = .none) (line : t.line = 0) (column : t.column = 0) :
    ∃ line column, t.write (Picture.frame f) =
      { t with glyph := overlaid (Picture.glyphs f) t.glyph, line, column } := by
  rw [write, Picture.toList_frame]
  exact print_text ready line column (Picture.glyphs_plain f)

theorem shows_iff : t.Shows f ↔ t.glyph = overlaid (Picture.glyphs f) fun _ _ => ' ' := by
  obtain ⟨line, column, written⟩ := write_frame (t := {}) (f := f) rfl rfl rfl
  rw [Shows, written]

/-- A screen that is brought up to date shows the picture over what was there. -/
theorem write_present (ready : t.progress = .none) :
    ∃ line column, t.write (Picture.home ++ Picture.frame f ++ Picture.lineEnd) =
      { t with glyph := overlaid (Picture.glyphs f) t.glyph, line, column } := by
  obtain ⟨line, column, written⟩ :=
    write_frame (t := { t with line := 0, column := 0 }) (f := f) ready rfl rfl
  refine ⟨line + 1, 0, ?_⟩
  rw [write_append, write_append, write_home ready, written]
  exact write_lineEnd ready

theorem IsWithin.overlaid (within : t.IsWithin width height) (f : Framebuffer width height) :
    overlaid (Picture.glyphs f) t.glyph = overlaid (Picture.glyphs f) fun _ _ => ' ' := by
  funext line column
  rw [overlaid_glyphs, overlaid_glyphs]
  split
  · rfl
  · exact within line column ‹_›

theorem not_shows_of_blank (wide : 0 < width) (high : 0 < height)
    (blank : t.glyph = fun _ _ => ' ') : ¬ t.Shows f := by
  rw [shows_iff, blank]
  intro same
  have corner := congrFun (congrFun same 0) 0
  rw [overlaid_glyphs, if_pos ⟨high, wide⟩] at corner
  split at corner <;> revert corner <;> decide

end TextScreen

end ChipEight
