import ChipEight.Proofs.History
import ChipEight.Proofs.Reads
import ChipEight.Proofs.Repainting
import ChipEight.Proofs.TextScreen
import ChipEight.Terminal.Front

/-!
A terminal goes on showing the picture unless it is wiped: nothing marks the picture then, and the
terminal stays blank until the picture changes.
-/

namespace ChipEight

/-! ### Keys read by a poll -/

theorem HexPad.InRange.foldl {α : Type} {pad : HexPad} (range : pad.InRange)
    {f : HexPad → α → HexPad} (kept : ∀ (pad : HexPad) a, pad.InRange → (f pad a).InRange)
    (items : List α) : (items.foldl f pad).InRange :=
  List.foldlRecOn (motive := HexPad.InRange) items f range fun pad range a _ => kept pad a range

theorem Keyboard.pad_poll {pad : HexPad} (range : pad.InRange) (k : Keyboard) (now : Number)
    (input : Input) : (k.poll pad now input).2.1.InRange := by
  simp only [poll, refresh, expire, type, typeUntil_eq]
  exact (range.foldl (fun pad entry range => range.release entry.1) _).foldl
    (fun pad key range => range.press key) _

namespace TerminalFront

/-! ### What may happen -/

/-- What may happen while a terminal shows the picture of a machine: something is done to the
machine, its picture is changed from outside, or the front end is called. -/
inductive Happening where
  | perform (action : Machine.Action)
  | change (change : Framebuffer.Change screenWidth screenHeight)
  | call (c : Call)

def happen (s : Session TerminalFront) : Happening → Session TerminalFront
  | .perform action => { s with machine := s.machine.perform action }
  | .change change => { s with machine.screen := s.machine.screen.change change }
  | .call c => react c s

def happenAll (s : Session TerminalFront) (happenings : List Happening) : Session TerminalFront :=
  happenings.foldl happen s

def glass (s : Session TerminalFront) : TextScreen :=
  ({} : TextScreen).write s.outside.output

variable {s start after : Session TerminalFront} {happenings : List Happening} {h : Happening}

theorem happenAll_concat :
    happenAll start (happenings ++ [h]) = happen (happenAll start happenings) h := by
  rw [happenAll, List.foldl_append]
  rfl

theorem output_write (f : TerminalFront) (text : String) :
    (f.write text).output = f.output ++ text := by
  simp only [output, write, Array.toList_push, String.join_append, String.join_cons,
    String.join_nil, String.append_empty]

theorem glass_write {text : String} (written : after.outside.output = s.outside.output ++ text) :
    glass after = (glass s).write text := by
  rw [glass, written, TextScreen.write_append, glass]

/-! ### Calls that have nothing to do with the picture -/

structure Quiet (s after : Session TerminalFront) : Prop where
  screen : after.machine.screen = s.machine.screen
  range : s.machine.InRange → after.machine.InRange
  glass : (glass s).progress = .none → glass after = glass s

theorem Quiet.of_same (machine : after.machine = s.machine)
    (output : after.outside.output = s.outside.output) : Quiet s after where
  screen := congrArg Machine.screen machine
  range range := by rwa [machine]
  glass _ := by rw [TerminalFront.glass, output, TerminalFront.glass]

theorem quiet_poll (now : Number) (s : Session TerminalFront) : Quiet s (poll now s) := by
  have range (valid : s.machine.pad.InRange) :=
    Keyboard.pad_poll valid s.outside.keyboard now s.outside.input
  unfold poll
  dsimp only
  generalize s.outside.keyboard.poll s.machine.pad now s.outside.input = polled at range ⊢
  obtain ⟨keyboard, pad, input, exits⟩ := polled
  cases exits <;> exact ⟨rfl, fun whole => { whole with pad := range whole.pad }, fun _ => rfl⟩

theorem quiet_beep (now : Number) (s : Session TerminalFront) : Quiet s (beep now s) := by
  unfold beep Bell.beep
  cases s.outside.bell.isSilent (.number now) with
  | error failure => exact .of_same rfl rfl
  | ok silent =>
    refine ⟨rfl, id, fun ready => ?_⟩
    refine (glass_write (output_write _ _)).trans ?_
    cases silent
    · exact TextScreen.write_ring ready
    · rfl

theorem quiet_atTime {call : Number → Session TerminalFront → Session TerminalFront}
    (quiet : ∀ now s, Quiet s (call now s)) (s : Session TerminalFront) :
    Quiet s (atTime call s) := by
  unfold atTime
  split
  · exact quiet _ s
  · exact .of_same rfl rfl

theorem quiet_react {c : Call} (clear : c ≠ .clear) (render : c ≠ .render)
    (s : Session TerminalFront) : Quiet s (react c s) := by
  cases c with
  | clear => exact absurd rfl clear
  | render => exact absurd rfl render
  | poll => exact quiet_atTime quiet_poll s
  | beep => exact quiet_atTime quiet_beep s
  | sleep seconds =>
    simp only [react, Timeline.wake]
    split <;> exact .of_same rfl rfl

/-! ### Pictures shown -/

def Clean (s : Session TerminalFront) : Prop :=
  s.machine.screen.dirty = false

theorem render_of_clean (clean : Clean s) :
    react .render s = { s with outside := s.outside.write "" } := by
  have nothing : Picture.present s.machine.screen = ("", s.machine.screen) := by
    rw [Picture.present, show s.machine.screen.dirty = false from clean]
    rfl
  rw [react, render, nothing]

theorem render_of_marked (marked : ¬ Clean s) :
    react .render s =
      { s with
        machine.screen.dirty := false
        outside := s.outside.write
          (Picture.home ++ Picture.frame s.machine.screen ++ Picture.lineEnd) } := by
  rw [react, render, Picture.present, if_pos (eq_true_of_ne_false marked)]

theorem quiet_render (clean : Clean s) : Quiet s (react .render s) := by
  rw [render_of_clean clean]
  exact ⟨rfl, id, fun _ => (glass_write (output_write s.outside "")).trans rfl⟩

theorem clean_render (s : Session TerminalFront) : Clean (react .render s) := by
  by_cases clean : Clean s
  · rwa [render_of_clean clean]
  · rw [render_of_marked clean]
    rfl

theorem glass_render (ready : (glass s).progress = .none) (marked : ¬ Clean s) :
    ∃ line column, glass (react .render s) =
      { glass s with
        glyph := TextScreen.overlaid (Picture.glyphs s.machine.screen) (glass s).glyph
        line
        column } := by
  rw [render_of_marked marked, glass_write (output_write s.outside _)]
  exact TextScreen.write_present ready

/-! ### Pictures lost -/

/-- The terminal was wiped while the picture was not marked as changed, and since then the picture
has not changed either. -/
def Lost (start : Session TerminalFront) (happenings : List Happening) : Prop :=
  Since (fun before h => h = .call .clear ∧ Clean (happenAll start before))
    (fun before h => Clean (happenAll start (before ++ [h]))) happenings

theorem lost_concat :
    Lost start (happenings ++ [h]) ↔
      (h = .call .clear ∧ Clean (happenAll start happenings)) ∨
        Lost start happenings ∧ Clean (happen (happenAll start happenings) h) := by
  rw [Lost, since_concat, happenAll_concat, Lost]

inductive Stage (start : Session TerminalFront) (happenings : List Happening)
    (s : Session TerminalFront) : Prop
  | outdated (dirty : ¬ Clean s) (kept : ¬ Lost start happenings)
  | shown (clean : Clean s) (kept : ¬ Lost start happenings)
    (shows : (glass s).Shows s.machine.screen)
  | lost (clean : Clean s) (lost : Lost start happenings) (blank : (glass s).glyph = fun _ _ => ' ')

structure Showing (start : Session TerminalFront) (happenings : List Happening)
    (s : Session TerminalFront) : Prop where
  now : happenAll start happenings = s
  range : s.machine.InRange
  ready : (glass s).progress = .none
  within : (glass s).IsWithin screenWidth screenHeight
  stage : Stage start happenings s

namespace Showing

theorem next (showing : Showing start happenings s) (h : Happening) :
    happenAll start (happenings ++ [h]) = happen s h := by
  rw [happenAll_concat, showing.now]

theorem lost_iff (showing : Showing start happenings s) (noWipe : h ≠ .call .clear) :
    Lost start (happenings ++ [h]) ↔ Lost start happenings ∧ Clean (happen s h) := by
  rw [lost_concat, or_iff_right fun wipe => noWipe wipe.1, showing.now]

theorem not_lost (showing : Showing start happenings s) (dirty : ¬ Clean s) :
    ¬ Lost start happenings := by
  cases showing.stage with
  | outdated _ kept => exact kept
  | shown clean => exact absurd clean dirty
  | lost clean => exact absurd clean dirty

theorem between (showing : Showing start happenings s) (noWipe : h ≠ .call .clear)
    (quiet : Quiet s (happen s h)) : Showing start (happenings ++ [h]) (happen s h) := by
  have glass := quiet.glass showing.ready
  have clean : Clean (happen s h) ↔ Clean s := by rw [Clean, quiet.screen, Clean]
  have lost := showing.lost_iff noWipe
  refine ⟨showing.next h, quiet.range showing.range, ?_, ?_, ?_⟩
  · rw [glass, showing.ready]
  · rw [glass]
    exact showing.within
  · cases showing.stage with
    | outdated dirty kept => exact .outdated (mt clean.mp dirty) fun both => kept (lost.mp both).1
    | shown current kept shows =>
      refine .shown (clean.mpr current) (fun both => kept (lost.mp both).1) ?_
      rwa [glass, quiet.screen]
    | lost current earlier blank =>
      refine .lost (clean.mpr current) (lost.mpr ⟨earlier, clean.mpr current⟩) ?_
      rwa [glass]

theorem outdated (showing : Showing start happenings s) (noWipe : h ≠ .call .clear)
    (dirty : ¬ Clean (happen s h)) (range : (happen s h).machine.InRange)
    (glass : glass (happen s h) = glass s) : Showing start (happenings ++ [h]) (happen s h) where
  now := showing.next h
  range := range
  ready := by rw [glass, showing.ready]
  within := by
    rw [glass]
    exact showing.within
  stage := .outdated dirty fun lost => dirty ((showing.lost_iff noWipe).mp lost).2

theorem perform (showing : Showing start happenings s) (action : Machine.Action) :
    Showing start (happenings ++ [.perform action]) (happen s (.perform action)) := by
  have range := showing.range.perform action
  rcases Machine.perform_reported showing.range action with same | dirty
  · exact showing.between nofun ⟨same, fun _ => range, fun _ => rfl⟩
  · exact showing.outdated nofun (ne_false_of_eq_true dirty) range rfl

theorem change (showing : Showing start happenings s)
    (change : Framebuffer.Change screenWidth screenHeight) :
    Showing start (happenings ++ [.change change]) (happen s (.change change)) := by
  have dirty := Framebuffer.dirty_change s.machine.screen change
  exact showing.outdated nofun (ne_false_of_eq_true dirty)
    (showing.range.setScreen (showing.range.screen.change change)) rfl

theorem wipe (showing : Showing start happenings s) :
    Showing start (happenings ++ [.call .clear]) (happen s (.call .clear)) := by
  have glass : glass (happen s (.call .clear)) =
      { glass s with glyph := fun _ _ => ' ', line := 0, column := 0 } :=
    (glass_write (output_write _ _)).trans (TextScreen.write_wipe showing.ready)
  have lost : Lost start (happenings ++ [.call .clear]) ↔ Clean s := by
    rw [lost_concat, showing.now]
    exact ⟨fun lost => lost.elim (·.2) (·.2), fun clean => .inl ⟨rfl, clean⟩⟩
  refine ⟨showing.next _, showing.range, ?_, ?_, ?_⟩
  · rw [glass]
    exact showing.ready
  · rw [glass]
    exact fun _ _ _ => rfl
  -- a picture that is marked anyway will be written again
  · by_cases clean : Clean s
    · exact .lost clean (lost.mpr clean) (congrArg TextScreen.glyph glass)
    · exact .outdated clean (mt lost.mp clean)

theorem render (showing : Showing start happenings s) :
    Showing start (happenings ++ [.call .render]) (happen s (.call .render)) := by
  by_cases clean : Clean s
  · exact showing.between nofun (quiet_render clean)
  · obtain ⟨line, column, glass⟩ := glass_render showing.ready clean
    have kept := mt ((showing.lost_iff (h := .call .render) nofun).mp) fun both =>
      showing.not_lost clean both.1
    refine ⟨showing.next _, ?_, ?_, ?_, .shown (clean_render s) kept ?_⟩
    · rw [happen, render_of_marked clean]
      exact showing.range.setScreen showing.range.screen
    · rw [happen, glass]
      exact showing.ready
    · rw [happen, glass]
      intro row place outside
      refine (TextScreen.overlaid_glyphs _ _ row place).trans ?_
      rw [if_neg outside]
      exact showing.within row place outside
    -- the frame covers all that was on the terminal
    · rw [happen, TextScreen.shows_iff, glass, render_of_marked clean]
      exact showing.within.overlaid _

theorem happen (showing : Showing start happenings s) (h : Happening) :
    Showing start (happenings ++ [h]) (TerminalFront.happen s h) := by
  cases h with
  | perform action => exact showing.perform action
  | change change => exact showing.change change
  | call c =>
    by_cases clear : c = .clear
    · subst clear
      exact showing.wipe
    · by_cases render : c = .render
      · subst render
        exact showing.render
      · exact showing.between (fun same => clear (Happening.call.inj same))
          (quiet_react clear render s)

end Showing

structure Fresh (s : Session TerminalFront) : Prop where
  range : s.machine.InRange
  marked : ¬ Clean s
  blank : s.outside.written = #[]

theorem Fresh.showing (fresh : Fresh start) : Showing start [] start := by
  have glass : glass start = {} := by
    rw [glass, output, fresh.blank]
    rfl
  refine ⟨rfl, fresh.range, by rw [glass], ?_, .outdated fresh.marked not_since_nil⟩
  rw [glass]
  exact fun _ _ _ => rfl

theorem Fresh.showing_all (fresh : Fresh start) (happenings : List Happening) :
    Showing start happenings (happenAll start happenings) :=
  foldl_induction (motive := Showing start) fresh.showing (fun _ _ h showing => showing.happen h)
    happenings

/-- Whatever happens, a terminal shows exactly the picture after it was asked to render it, unless
it was wiped while the picture was not marked as changed and the picture has not changed since. Then
the terminal is blank. -/
theorem render_shows_iff (fresh : Fresh start) (happenings : List Happening) :
    let s := happenAll start (happenings ++ [.call .render])
    ((glass s).Shows s.machine.screen ↔ ¬ Lost start happenings) ∧
      (Lost start happenings → (glass s).glyph = fun _ _ => ' ') := by
  intro s
  have before := fresh.showing_all happenings
  have clean : Clean s := by
    simp only [s, happenAll_concat]
    exact clean_render _
  have lost : Lost start (happenings ++ [.call .render]) ↔ Lost start happenings := by
    rw [before.lost_iff (h := .call .render) nofun, ← before.next]
    exact and_iff_left clean
  cases (fresh.showing_all (happenings ++ [.call .render])).stage with
  | outdated marked => exact absurd clean marked
  | shown _ kept shows =>
    rw [lost] at kept
    exact ⟨iff_of_true shows kept, fun lost => absurd lost kept⟩
  | lost _ gone blank =>
    rw [lost] at gone
    have empty : ¬ (glass s).Shows s.machine.screen :=
      TextScreen.not_shows_of_blank (by decide) (by decide) blank
    exact ⟨iff_of_false empty (not_not_intro gone), fun _ => blank⟩

/-- A picture that was wiped off the terminal is not shown by the next render, and is shown by it if
a pixel was set in between. -/
theorem render_shows_unless_wiped :
    let start : Session TerminalFront := { machine := .new, settings := {}, outside := {} }
    let wiped : List Happening := [.call .render, .call .clear]
    let lit : Happening := .change (.set ⟨3, by decide⟩ ⟨5, by decide⟩ true)
    let again := happenAll start (wiped ++ [.call .render])
    let changed := happenAll start ((wiped ++ [lit]) ++ [.call .render])
    Fresh start ∧ ¬ (glass again).Shows again.machine.screen ∧
      (glass changed).Shows changed.machine.screen := by
  intro start wiped lit again changed
  have fresh : Fresh start := ⟨.new _ _, ne_false_of_eq_true rfl, rfl⟩
  have lost : Lost start ([.call .render] ++ [.call .clear]) :=
    lost_concat.mpr (.inl ⟨rfl, clean_render start⟩)
  refine ⟨fresh, ?_, ?_⟩
  · exact mt (render_shows_iff fresh wiped).1.mp (not_not_intro lost)
  · refine (render_shows_iff fresh (wiped ++ [lit])).1.mpr fun kept => ?_
    rcases lost_concat.mp kept with ⟨wipe, _⟩ | ⟨_, clean⟩
    · exact absurd wipe nofun
    · exact ne_false_of_eq_true (Framebuffer.dirty_change _ _) clean

end TerminalFront

end ChipEight
