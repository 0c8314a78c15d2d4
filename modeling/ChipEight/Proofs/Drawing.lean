import ChipEight.Proofs.Images
import ChipEight.Window.Front

/-!
Of all that is done to a window only a drawing that is delivered draws anything, and a poll delivers
all that was asked for by then.
-/

namespace ChipEight

/-! ### What a window has drawn -/

def DeviceCall.image? : DeviceCall → Option Image
  | .blit image => some image
  | _ => none

def DeviceCall.isPlain : DeviceCall → Bool
  | .blit _ | .openWindow .. | .closeWindow => false
  | _ => true

theorem DeviceCall.image?_of_plain {c : DeviceCall} (plain : c.isPlain = true) :
    c.image? = none := by
  cases c <;> first
    | rfl
    | cases plain

/-- The image that was drawn last among some calls. It is what a flip behind them presents. -/
def presented (calls : List DeviceCall) : Option Image :=
  (calls.filterMap DeviceCall.image?).getLast?

theorem presented_append (before later : List DeviceCall) :
    presented (before ++ later) = (presented later).or (presented before) := by
  rw [presented, List.filterMap_append, List.getLast?_append, presented, presented]

theorem presented_of_none {calls : List DeviceCall} (none : ∀ c ∈ calls, c.image? = .none) :
    presented calls = .none := by
  rw [presented, List.filterMap_eq_nil_iff.mpr none, List.getLast?_nil]

namespace Window

variable {w v : Window} {s : Scene} {r : Reaction}

/-! ### Windows that are painted -/

structure Untouched (w : Window) : Prop where
  canvas : w.canvas = .blank
  image : w.image = { width := w.width, height := w.height }

structure Ready (w : Window) : Prop where
  solid : w.canvas.Solid
  width : w.image.width = w.width
  height : w.image.height = w.height

theorem Untouched.ready (untouched : w.Untouched) : w.Ready := by
  obtain ⟨canvas, image⟩ := untouched
  refine ⟨?_, ?_, ?_⟩
  · rw [canvas]
    exact Canvas.solid_blank
  · rw [image]
  · rw [image]

theorem Ready.paint (ready : w.Ready) (f : Framebuffer screenWidth screenHeight) :
    (w.paint f).Ready where
  solid := ready.solid.paint f
  width := ready.width
  height := ready.height

theorem Ready.image_paint (ready : w.Ready) (f : Framebuffer screenWidth screenHeight) :
    (w.paint f).image = Image.enlarged w.scale f := by
  simp only [Window.paint, Image.setData, Image.enlarged, ready.width, ready.height,
    ready.solid.enlarged_paint]
  rfl

/-- Only what was painted in a window may be different. -/
structure Repainted (w v : Window) : Prop where
  scale : v.scale = w.scale
  showsSpeeds : v.showsSpeeds = w.showsSpeeds
  ready : w.Ready → v.Ready

theorem Repainted.refl (w : Window) : w.Repainted w :=
  ⟨rfl, rfl, id⟩

theorem Repainted.of_eq (same : v = w) : w.Repainted v :=
  same ▸ .refl w

theorem Repainted.trans {u : Window} (first : w.Repainted v) (rest : v.Repainted u) :
    w.Repainted u :=
  ⟨rest.scale.trans first.scale, rest.showsSpeeds.trans first.showsSpeeds, rest.ready ∘ first.ready⟩

theorem Repainted.enqueue (w : Window) (e : WindowEvent) : w.Repainted (w.enqueue e) :=
  ⟨rfl, rfl, fun ready => { ready with }⟩

theorem repainted_draw (w : Window) (s : Scene) : w.Repainted (w.draw s).window := by
  unfold draw
  dsimp only
  split <;> exact ⟨rfl, rfl, fun ready => ready.paint _⟩

theorem repainted_handle (w : Window) (s : Scene) (e : WindowEvent) :
    w.Repainted (w.handle s e).window := by
  cases e with
  | draw => exact w.repainted_draw s
  | press | release | close => exact .refl w

theorem repainted_handleAll (w : Window) (s : Scene) (events : List WindowEvent) :
    w.Repainted (w.handleAll s events).1.window := by
  induction events generalizing w s with
  | nil => exact .refl w
  | cons e events ih =>
    have first := w.repainted_handle s e
    unfold handleAll
    dsimp only
    split
    · exact first
    · exact first.trans (ih _ _)

theorem repainted_poll (w : Window) (s : Scene) : w.Repainted (w.poll s).window :=
  (w.repainted_handleAll s w.queue).trans ⟨rfl, rfl, fun ready => { ready with }⟩

/-! ### What a reaction draws -/

/-- A reaction is carried through. It leaves the pixels and the speeds as they are and draws a given
image last. -/
structure Draws (s : Scene) (r : Reaction) (image : Option Image) : Prop where
  failure : r.failure = none
  speeds : r.scene.speeds = s.speeds
  cells : r.scene.machine.screen.cells = s.machine.screen.cells
  presented : presented r.calls = image

def Legible (w : Window) (s : Scene) : Prop :=
  ∃ labels, w.labels s = .ok labels ∧ ∀ c ∈ labels, c.image? = none

theorem Legible.keep {t : Scene} (legible : w.Legible s) (same : t.speeds = s.speeds)
    (repainted : w.Repainted v) : v.Legible t := by
  have labels : v.labels t = w.labels s := by
    rw [Window.labels, same, repainted.showsSpeeds, Window.labels]
  rwa [Legible, labels]

theorem labels_plain {labels : List DeviceCall} (shown : w.labels s = .ok labels) :
    ∀ c ∈ labels, c.isPlain = true := by
  unfold Window.labels at shown
  split at shown
  · rename_i speeds _ _
    cases text : speeds.frameText with
    | error failure =>
      rw [text] at shown
      cases shown
    | ok line =>
      rw [text] at shown
      cases shown
      simp [DeviceCall.isPlain]
  · cases shown
    nofun

theorem draw_draws (ready : w.Ready) (legible : w.Legible s) :
    Draws s (w.draw s) (some (Image.enlarged w.scale s.machine.screen)) := by
  obtain ⟨labels, shown, plain⟩ := legible
  have presented : presented ([.clear, .blit (w.paint s.machine.screen).image] ++ labels) =
      some (Image.enlarged w.scale s.machine.screen) := by
    rw [presented_append, presented_of_none plain, ready.image_paint]
    rfl
  rw [draw, shown]
  exact ⟨rfl, rfl, rfl, presented⟩

/-- A scene after anything but a drawing. -/
structure Answers (s t : Scene) : Prop where
  speeds : t.speeds = s.speeds
  screen : t.machine.screen = s.machine.screen
  executed : t.machine.cycles = s.machine.cycles
  range : s.machine.InRange → t.machine.InRange

theorem press_answers (s : Scene) (key : WindowKey) : Answers s (press s key) := by
  unfold press
  split
  · exact ⟨rfl, rfl, rfl, id⟩
  · exact ⟨rfl, rfl, rfl, id⟩
  · split
    · exact ⟨rfl, rfl, rfl, fun range => { range with pad := range.pad.press _ }⟩
    · exact ⟨rfl, rfl, rfl, id⟩
  · exact ⟨rfl, rfl, rfl, id⟩

theorem release_answers (s : Scene) (key : WindowKey) : Answers s (release s key) := by
  unfold release
  split
  · split
    · exact ⟨rfl, rfl, rfl, fun range => { range with pad := range.pad.release _ }⟩
    · exact ⟨rfl, rfl, rfl, id⟩
  · exact ⟨rfl, rfl, rfl, id⟩

theorem handle_answers {e : WindowEvent} (other : e ≠ .draw) (w : Window) (s : Scene) :
    ∃ t, w.handle s e = { scene := t, window := w } ∧ Answers s t := by
  cases e with
  | draw => exact absurd rfl other
  | press key => exact ⟨_, rfl, press_answers s key⟩
  | release key => exact ⟨_, rfl, release_answers s key⟩
  | close => exact ⟨_, rfl, rfl, rfl, rfl, id⟩

theorem handle_draws_nothing {e : WindowEvent} (other : e ≠ .draw) (w : Window) (s : Scene) :
    Draws s (w.handle s e) none ∧ (w.handle s e).window = w := by
  obtain ⟨t, handled, answers⟩ := handle_answers other w s
  rw [handled]
  exact ⟨⟨rfl, answers.speeds, congrArg Framebuffer.cells answers.screen, rfl⟩, rfl⟩

theorem handle_draws (ready : w.Ready) (legible : w.Legible s) (e : WindowEvent) :
    Draws s (w.handle s e)
      (if e = .draw then some (Image.enlarged w.scale s.machine.screen) else none) := by
  split
  · rename_i drawing
    subst drawing
    exact draw_draws ready legible
  · exact (handle_draws_nothing ‹_› w s).1

theorem handleAll_draws (ready : w.Ready) (legible : w.Legible s) (events : List WindowEvent) :
    (w.handleAll s events).2 = [] ∧
      Draws s (w.handleAll s events).1
        (if .draw ∈ events then some (Image.enlarged w.scale s.machine.screen) else none) := by
  induction events generalizing w s with
  | nil => exact ⟨rfl, rfl, rfl, rfl, rfl⟩
  | cons e events ih =>
    have first := handle_draws ready legible e
    have repainted := w.repainted_handle s e
    obtain ⟨left, later⟩ := ih (repainted.ready ready) (legible.keep first.speeds repainted)
    simp only [handleAll, first.failure]
    refine ⟨left, later.failure, later.speeds.trans first.speeds, later.cells.trans first.cells, ?_⟩
    rw [presented_append, later.presented, first.presented, repainted.scale,
      Image.enlarged_of_cells w.scale first.cells]
    by_cases again : .draw ∈ events
    · simp [again]
    · by_cases now : e = .draw <;> simp [again, now, eq_comm]

theorem poll_draws (ready : w.Ready) (legible : w.Legible s) :
    (w.poll s).window.queue = [] ∧
      Draws s (w.poll s)
        (if .draw ∈ w.queue then some (Image.enlarged w.scale s.machine.screen) else none) := by
  obtain ⟨left, draws⟩ := handleAll_draws ready legible w.queue
  exact ⟨left, draws.failure, draws.speeds, draws.cells, draws.presented⟩

end Window

/-! ### Sounds are plain -/

namespace Buzzer

/-- A player that there is, counted from either end. -/
def Has (b : Buzzer) (player : Value) : Prop :=
  ∃ n, player.asInteger (.index "list") = .ok n ∧ fitsWord n ∧
    -(b.players : Int) ≤ n ∧ n < b.players

theorem finish_eq_ok_iff {b : Buzzer} {player : Value} {after : List DeviceCall × Buzzer} :
    b.finish player = .ok after ↔
      b.Has player ∧ after = ([.deletePlayer], { b with isPlaying := false }) := by
  unfold finish Has
  cases player.asInteger (.index "list") with
  | error failure => simp [bind, Except.bind]
  | ok n =>
    by_cases fits : fitsWord n
    · by_cases begun : -(b.players : Int) ≤ n ∧ n < b.players
      · simpa [bind, Except.bind, pure, Except.pure, fits, begun] using eq_comm
      · simp [bind, Except.bind, fits, begun]
    · simp [bind, Except.bind, fits]

theorem finish_plain {b left : Buzzer} {player : Value} {calls : List DeviceCall}
    (ended : b.finish player = .ok (calls, left)) : ∀ c ∈ calls, c.isPlain = true := by
  obtain ⟨-, same⟩ := finish_eq_ok_iff.mp ended
  cases same
  simp [DeviceCall.isPlain]

theorem tone_plain {b : Buzzer} {pitch : Except Failure Number} {call : DeviceCall}
    (made : pitch.bind b.tone = .ok call) : call.isPlain = true := by
  cases pitch with
  | error failure => cases made
  | ok pitch =>
    simp only [Except.bind, tone, bind] at made
    split at made
    · cases made
    · cases made
      rfl

theorem beep_plain (b : Buzzer) : ∀ c ∈ b.beep.calls, c.isPlain = true := by
  unfold beep
  split
  · nofun
  · split
    · nofun
    · dsimp only
      split
      · nofun
      · rename_i call made
        have plain := tone_plain made
        split
        · exact List.forall_mem_singleton.mpr plain
        · exact List.forall_mem_cons.mpr ⟨plain, by simp [DeviceCall.isPlain]⟩

end Buzzer

/-! ### Calls of a window front end -/

namespace WindowFront

variable {s t : Session WindowFront}

def lastDrawn (s : Session WindowFront) : Option Image :=
  presented s.outside.calls.toList

theorem lastDrawn_call (calls : List DeviceCall)
    (made : t.outside.calls = s.outside.calls ++ calls) :
    lastDrawn t = (presented calls).or (lastDrawn s) := by
  rw [lastDrawn, made, Array.toList_appendList, presented_append, lastDrawn]

def IsCurrent (s : Session WindowFront) : Prop :=
  lastDrawn s = some (Image.enlarged s.outside.window.scale s.machine.screen)

structure Quiet (s t : Session WindowFront) : Prop where
  cells : t.machine.screen.cells = s.machine.screen.cells
  window : t.outside.window = s.outside.window
  happenings : t.outside.happenings = s.outside.happenings
  lastDrawn : lastDrawn t = lastDrawn s

namespace Quiet

theorem refl (s : Session WindowFront) : Quiet s s :=
  ⟨rfl, rfl, rfl, rfl⟩

theorem trans {u : Session WindowFront} (first : Quiet s t) (rest : Quiet t u) : Quiet s u where
  cells := rest.cells.trans first.cells
  window := rest.window.trans first.window
  happenings := rest.happenings.trans first.happenings
  lastDrawn := rest.lastDrawn.trans first.lastDrawn

theorem of_calls (calls : List DeviceCall) (plain : ∀ c ∈ calls, c.isPlain = true)
    (cells : t.machine.screen.cells = s.machine.screen.cells)
    (window : t.outside.window = s.outside.window)
    (happenings : t.outside.happenings = s.outside.happenings)
    (made : t.outside.calls = s.outside.calls ++ calls) : Quiet s t where
  cells := cells
  window := window
  happenings := happenings
  lastDrawn := by
    rw [lastDrawn_call calls made,
      presented_of_none fun c member => DeviceCall.image?_of_plain (plain c member)]
    rfl

end Quiet

theorem legible_scene (s : Session WindowFront) (w : Window) : w.Legible (scene s) := by
  unfold Window.Legible Window.labels scene
  cases w.showsSpeeds with
  | false => exact ⟨[], rfl, nofun⟩
  | true =>
    refine ⟨_, rfl, ?_⟩
    simp [DeviceCall.image?]

theorem quiet_after {r : Reaction} (draws : Window.Draws (scene s) r none)
    (same : r.window = s.outside.window) : Quiet s (after s r) where
  cells := draws.cells
  window := same
  happenings := rfl
  lastDrawn := by
    rw [lastDrawn_call (t := after s r) r.calls rfl, draws.presented]
    rfl

theorem quiet_happen {h : Happening} (other : h ≠ .window .draw) (s : Session WindowFront) :
    Quiet s (happen s h) := by
  cases h with
  | window event =>
    obtain ⟨draws, same⟩ := Window.handle_draws_nothing (fun same => other (same ▸ rfl)) _ _
    exact quiet_after draws same
  | toneEnds player =>
    cases ended : s.outside.buzzer.finish player with
    | error failure =>
      simp only [happen, ended]
      exact ⟨rfl, rfl, rfl, rfl⟩
    | ok outcome =>
      simp only [happen, ended]
      exact .of_calls _ (Buzzer.finish_plain ended) rfl rfl rfl rfl

theorem quiet_happenings {happenings : List Happening} (undrawn : .window .draw ∉ happenings)
    (s : Session WindowFront) :
    Quiet s (happenings.foldl (fun s h => s.andThen (happen · h)) s) := by
  refine List.foldlRecOn (motive := Quiet s) _ _ (.refl s) fun t quiet h mem => ?_
  unfold Session.andThen
  split
  · exact quiet
  · exact quiet.trans (quiet_happen (fun same => undrawn (same ▸ mem)) t)

structure Polled (s t : Session WindowFront) : Prop where
  cells : t.machine.screen.cells = s.machine.screen.cells
  window : s.outside.window.Repainted t.outside.window
  queue : t.outside.window.queue = []
  happenings : t.outside.happenings = s.outside.happenings
  lastDrawn : lastDrawn t =
    if .draw ∈ s.outside.window.queue then
      some (Image.enlarged s.outside.window.scale s.machine.screen)
    else lastDrawn s

theorem poll_polled (ready : s.outside.window.Ready)
    (undrawn : ∀ poll, .window .draw ∉ s.outside.happenings poll) : Polled s (poll s) := by
  obtain ⟨delivered, draws⟩ := Window.poll_draws ready (legible_scene s s.outside.window)
  unfold poll
  dsimp only
  have repainted := s.outside.window.repainted_poll (scene s)
  generalize s.outside.window.poll (scene s) = r at delivered draws repainted ⊢
  have quiet := quiet_happenings (undrawn (s.outside.polls + 1))
  refine ⟨(quiet _).cells.trans draws.cells, repainted.trans (.of_eq (quiet _).window),
    (congrArg Window.queue (quiet _).window).trans delivered, (quiet _).happenings,
    (quiet _).lastDrawn.trans ?_⟩
  refine (lastDrawn_call r.calls rfl).trans ?_
  rw [draws.presented]
  split <;> rfl

end WindowFront

end ChipEight
