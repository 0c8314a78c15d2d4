import ChipEight.Proofs.Drawing
import ChipEight.Proofs.Protocol
import ChipEight.Proofs.Showing

/-!
The terminal and the window are attentive hosts as long as the clock counts whole nanoseconds,
nobody interrupts the program, and the bell or the buzzer is set to what can be sounded.
-/

namespace ChipEight

/-! ### Time -/

theorem Number.real_whole {n : Int} (near : 2 * n.natAbs ≤ Nat.pow 2 1024) :
    ∃ x, (whole n).real = .ok x :=
  ⟨_, if_pos (Dyadic.fits_nearest near)⟩

theorem Value.realBits_of_real {v : Value} (real : ∃ x, v.real = .ok x) :
    ∃ bits, v.realBits = .ok bits := by
  obtain ⟨x, real⟩ := real
  simp only [realBits, real, bind, Except.bind]
  split <;> exact ⟨_, rfl⟩

namespace Timeline

/-- Nobody interrupts the program, the clock counts whole nanoseconds, and it can be read so many
times before it leaves the range of the doubles. -/
def Runs (n : Nat) (t : Timeline) : Prop :=
  ∃ now stride : Int, t.time = .whole now ∧ t.stride = .whole stride ∧ t.interruptedAt = none ∧
    2 * (now.natAbs + n * stride.natAbs) ≤ Nat.pow 2 1024

namespace Runs

variable {t : Timeline} {n : Nat}

theorem fewer (runs : t.Runs (n + 1)) : t.Runs n := by
  obtain ⟨now, stride, time, moves, uninterrupted, near⟩ := runs
  rw [Nat.add_one_mul n] at near
  exact ⟨now, stride, time, moves, uninterrupted, by omega⟩

theorem read (runs : t.Runs (n + 1)) :
    (∃ now : Int, t.read.1 = .ok (.whole now)) ∧ t.read.2.Runs n := by
  obtain ⟨now, stride, time, moves, uninterrupted, near⟩ := runs
  have onward : t.read = (.ok (.whole now), { t with time := .whole (now + stride) }) := by
    rw [Timeline.read, time, moves]
    rfl
  have further := Int.natAbs_add_le now stride
  rw [Nat.add_one_mul n] at near
  rw [onward]
  exact ⟨⟨now, rfl⟩, now + stride, stride, rfl, moves, uninterrupted, by omega⟩

theorem seconds (runs : t.Runs n) : ∃ x, t.seconds = .ok (.double x) := by
  obtain ⟨now, _, time, _, _, near⟩ := runs
  obtain ⟨x, real⟩ := Number.real_whole (n := now) (by omega)
  rw [Timeline.seconds, time, real]
  exact ⟨_, rfl⟩

theorem wake {σ : Type} (runs : t.Runs n) (s : Session σ) :
    t.sleep.wake s = { s with interrupted := false } := by
  obtain ⟨_, _, _, _, uninterrupted, _⟩ := runs
  simp only [Timeline.wake, isInterrupted, sleep, uninterrupted]

end Runs

end Timeline

theorem Machine.inRange_invariant_and {σ : Type} (P : σ → Prop) :
    Machine.Invariant fun m outside => m.InRange ∧ P outside where
  range holds := holds.1
  step holds stepped := ⟨holds.1.next stepped, holds.2⟩
  countDown holds := ⟨{ holds.1 with timers := holds.1.timers.tick }, holds.2⟩

structure Settings.Whole (settings : Settings) : Prop where
  cycles : ∃ n : Nat, settings.cyclesPerSecond.perSecond = .whole n ∧ 1 ≤ nanoseconds / n
  frames : ∃ n : Nat, settings.frameRate.perSecond = .whole n

theorem Settings.Whole.exact {σ : Type} {h : Host σ} {I : Nat → Machine → σ → Prop}
    {settings : Settings} (rates : settings.Whole)
    (clock : ∀ {n m outside}, I (n + 1) m outside →
      ∃ t : Int, (h.clock outside).1 = .ok (.whole t)) : h.Exact I settings := by
  obtain ⟨⟨c, cycles, slow⟩, ⟨f, frames⟩⟩ := rates
  exact ⟨clock, ⟨_, Int.natCast_pos.mpr slow, Session.period_of_whole cycles⟩,
    _, Session.period_of_whole frames⟩

theorem Session.protocol_of_exact {σ : Type} {h : Host σ} {I : Nat → Machine → σ → Prop}
    (attends : h.Attends I) {s : Session σ} (exact : h.Exact I s.settings) {patience limit : Nat}
    (holds : I (2 * limit + 1) s.machine s.outside) (unbroken : s.failure = none)
    (uninterrupted : s.interrupted = false) :
    let run := s.watched.run h.watched patience limit
    Protocol True h.hasBuzzer s.settings limit s.cancelled s.machine run.2.outside.2 run.1
      run.2.machine := by
  have protocol : Protocol (h.Exact I s.settings) h.hasBuzzer s.settings limit s.cancelled s.machine
      (s.watched.run h.watched patience limit).2.outside.2
      (s.watched.run h.watched patience limit).1
      (s.watched.run h.watched patience limit).2.machine :=
    protocol_of_open (s := s.watched) attends ⟨holds, unbroken⟩ uninterrupted rfl
  rwa [eq_true exact] at protocol

/-! ### The terminal -/

structure Bell.Sounds (b : Bell) : Prop where
  cooldown : ∃ n, b.cooldown = .number n
  last : b.last = .null ∨ ∃ x, b.last = .number (.double x)

theorem Bell.Sounds.beep {b : Bell} (sounds : b.Sounds) (x : Float) :
    ∃ text after, b.beep (.number (.double x)) = .ok (text, after) ∧ after.Sounds := by
  obtain ⟨n, cooldown⟩ := sounds.cooldown
  have decided : ∃ silent, b.isSilent (.number (.double x)) = .ok silent := by
    rcases sounds.last with never | ⟨y, once⟩
    · exact ⟨false, by rw [isSilent, never]⟩
    · exact ⟨_, by rw [isSilent, once, cooldown]; rfl⟩
  obtain ⟨silent, decided⟩ := decided
  rw [Bell.beep, decided]
  cases silent with
  | true => exact ⟨_, _, rfl, sounds⟩
  | false => exact ⟨_, _, rfl, sounds.cooldown, .inr ⟨x, rfl⟩⟩

namespace TerminalFront

structure Runs (n : Nat) (f : TerminalFront) : Prop where
  timeline : f.timeline.Runs n
  bell : f.bell.Sounds

abbrev Running (n : Nat) (m : Machine) (f : TerminalFront) : Prop :=
  m.InRange ∧ f.Runs n

variable {n : Nat} {s : Session TerminalFront}

open Session (Attended)

theorem attended_poll (now : Number) (s : Session TerminalFront) :
    s.Attended (Running n) (poll now s) := by
  have range (valid : s.machine.pad.InRange) :=
    Keyboard.pad_poll valid s.outside.keyboard now s.outside.input
  unfold poll
  dsimp only
  generalize s.outside.keyboard.poll s.machine.pad now s.outside.input = polled at range ⊢
  obtain ⟨keyboard, pad, input, exits⟩ := polled
  have holds {f : TerminalFront} (timeline : f.timeline = s.outside.timeline)
      (bell : f.bell = s.outside.bell) :
      Running n s.machine s.outside → Running n { s.machine with pad } f := fun running =>
    ⟨{ running.1 with pad := range running.1.pad }, timeline ▸ running.2.timeline,
      bell ▸ running.2.bell⟩
  split
  · exact ⟨⟨rfl, rfl, rfl, rfl, holds rfl rfl⟩, id, id⟩
  · exact ⟨⟨rfl, rfl, rfl, rfl, holds rfl rfl⟩, fun _ => rfl, id⟩

theorem attended_beep (sounds : s.outside.bell.Sounds) (x : Float) :
    s.Attended (Running n) (beep (.double x) s) := by
  obtain ⟨text, bell, rings, after⟩ := sounds.beep x
  rw [beep, rings]
  exact ⟨⟨rfl, rfl, rfl, rfl, fun running => ⟨running.1, running.2.timeline, after⟩⟩, id, id⟩

theorem attended_render (s : Session TerminalFront) :
    s.Attended (Running n) (react .render s) := by
  by_cases clean : Clean s
  · rw [render_of_clean clean]
    exact ⟨⟨rfl, rfl, rfl, rfl, fun running => ⟨running.1, { running.2 with }⟩⟩, id, id⟩
  · rw [render_of_marked clean]
    exact ⟨⟨rfl, rfl, rfl, rfl, fun running => ⟨{ running.1 with }, { running.2 with }⟩⟩, id, id⟩

theorem attended_react (runs : s.outside.Runs n) (call : Call) :
    s.Attended (Running n) (react call s) := by
  obtain ⟨x, told⟩ := runs.timeline.seconds
  cases call with
  | clear =>
    exact ⟨⟨rfl, rfl, rfl, rfl, fun running => ⟨running.1, { running.2 with }⟩⟩, id, id⟩
  | render => exact attended_render s
  | poll =>
    simp only [react, atTime, told]
    exact attended_poll _ s
  | beep =>
    simp only [react, atTime, told]
    exact attended_beep runs.bell x
  | sleep seconds =>
    simp only [react, TerminalFront.sleep, runs.timeline.wake]
    exact ⟨⟨rfl, rfl, rfl, rfl, fun running => ⟨running.1, { running.2 with }⟩⟩, id, fun _ => rfl⟩

theorem host_attends : host.Attends Running where
  attentive _ :=
    { invariant := Machine.inRange_invariant_and _
      react := fun call _ _ running => attended_react running.2 call }
  clock running := ⟨running.1, { running.2 with timeline := running.2.timeline.read.2 }⟩
  fewer running := ⟨running.1, { running.2 with timeline := running.2.timeline.fewer }⟩

theorem host_exact {settings : Settings} (rates : settings.Whole) : host.Exact Running settings :=
  rates.exact fun running => running.2.timeline.read.1

/-- A session in a terminal follows the protocol, and no round of it is given up. -/
theorem keeps_protocol (rates : s.settings.Whole) {patience limit : Nat}
    (running : Running (2 * limit + 1) s.machine s.outside) (unbroken : s.failure = none)
    (uninterrupted : s.interrupted = false) :
    let run := s.watched.run host.watched patience limit
    Protocol True true s.settings limit s.cancelled s.machine run.2.outside.2 run.1
      run.2.machine :=
  Session.protocol_of_exact host_attends (host_exact rates) running unbroken uninterrupted

example : TerminalFront.Runs 1000000000 {} :=
  ⟨⟨0, 1000000, rfl, rfl, rfl, by decide +kernel⟩, ⟨_, rfl⟩, .inl rfl⟩

end TerminalFront

/-! ### The buzzer -/

namespace Buzzer

structure Sounds (b : Buzzer) : Prop where
  pitch : ∃ n : Int, b.pitch = .whole n
  variation : ∃ n : Int, b.variation = .whole n
  random : ∀ k, ∃ n : Int, b.random.item k = .whole n
  length : ∃ x, b.seconds.real = .ok x
  size : ∃ n, b.toneSize = .ok n

variable {b : Buzzer} {player : Value}

theorem Has.finish (has : b.Has player) :
    b.finish player = .ok ([.deletePlayer], { b with isPlaying := false }) :=
  finish_eq_ok_iff.mpr ⟨has, rfl⟩

theorem Has.more (has : b.Has player) {c : Buzzer} (more : b.players ≤ c.players) :
    c.Has player := by
  obtain ⟨n, counts, fits, low, high⟩ := has
  exact ⟨n, counts, fits, by omega, by omega⟩

theorem within_whole (low high random : Int) (wide : high - low + 1 ≠ 0) :
    within (.whole low) (.whole high) (.whole random) =
      .ok (.whole (low + random.fmod (high - low + 1))) := by
  have nonzero : (Number.whole (high - low + 1)).isNonZero = true :=
    decide_eq_true (Int.natAbs_ne_zero.mpr wide)
  have modulo : Value.reckon "%" Number.modulo (.whole random) (.whole (high - low + 1)) =
      .ok (.whole (random.fmod (high - low + 1))) := by
    simp only [Value.reckon, Value.toNumber?, Number.modulo, nonzero]
    rfl
  simp only [within, Value.minus_whole, bind, Except.bind, Number.plus_whole, modulo]

theorem Sounds.makeTone (sounds : b.Sounds) {variation : Int}
    (varies : b.variation = .whole variation) (random : Int) :
    ∃ call, (b.pitchFor (.whole (-variation)) (.whole random)).bind b.tone = .ok call := by
  obtain ⟨pitch, pitched⟩ := sounds.pitch
  obtain ⟨bits, length⟩ := Value.realBits_of_real sounds.length
  have offset := within_whole (-variation) variation random (by omega)
  simp only [pitchFor, varies, offset, pitched, bind, Except.bind, tone, length]
  exact ⟨_, rfl⟩

theorem Sounds.beep (sounds : b.Sounds) :
    b.beep.failure = none ∧ b.beep.buzzer.Sounds ∧ b.players ≤ b.beep.buzzer.players := by
  obtain ⟨variation, varies⟩ := sounds.variation
  obtain ⟨random, drawn⟩ := sounds.random b.random.taken
  have lowest : b.variation.negated = .ok (.whole (-variation)) := by
    rw [varies]
    rfl
  have after : ({ b with random := b.random.next.2 } : Buzzer).Sounds := { sounds with }
  obtain ⟨call, made⟩ := after.makeTone varies random
  obtain ⟨size, sized⟩ := after.size
  unfold Buzzer.beep
  split
  · exact ⟨rfl, sounds, Nat.le_refl _⟩
  · have taken : b.random.next.1 = .whole random := drawn
    simp only [lowest, taken, made, sized]
    exact ⟨trivial, { sounds with }, Nat.le_succ _⟩

end Buzzer

/-! ### The window -/

namespace Window

structure Serves (s : Scene) (r : Reaction) : Prop where
  failure : r.failure = none
  speeds : r.scene.speeds = s.speeds
  executed : r.scene.machine.cycles = s.machine.cycles
  range : s.machine.InRange → r.scene.machine.InRange

variable {w v : Window} {s : Scene}

theorem handle_serves (legible : w.Legible s) (e : WindowEvent) : Serves s (w.handle s e) := by
  by_cases drawing : e = .draw
  · subst drawing
    obtain ⟨labels, shown, _⟩ := legible
    rw [handle, draw, shown]
    exact ⟨rfl, rfl, rfl, fun range => { range with }⟩
  · obtain ⟨t, handled, answers⟩ := handle_answers drawing w s
    rw [handled]
    exact ⟨rfl, answers.speeds, answers.executed, answers.range⟩

theorem handleAll_serves (legible : w.Legible s) (events : List WindowEvent) :
    Serves s (w.handleAll s events).1 := by
  induction events generalizing w s with
  | nil => exact ⟨rfl, rfl, rfl, id⟩
  | cons e events ih =>
    have first := handle_serves legible e
    have later := ih (legible.keep first.speeds (w.repainted_handle s e))
    simp only [handleAll, first.failure]
    exact ⟨later.failure, later.speeds.trans first.speeds, later.executed.trans first.executed,
      later.range ∘ first.range⟩

theorem poll_serves (legible : w.Legible s) : Serves s (w.poll s) :=
  have all := handleAll_serves legible w.queue
  ⟨all.failure, all.speeds, all.executed, all.range⟩

end Window

namespace WindowFront

structure Runs (n : Nat) (f : WindowFront) : Prop where
  timeline : f.timeline.Runs n
  buzzer : f.buzzer.Sounds
  begun : ∀ poll player, .toneEnds player ∈ f.happenings poll → f.buzzer.Has player

abbrev Running (n : Nat) (m : Machine) (f : WindowFront) : Prop :=
  m.InRange ∧ f.Runs n

variable {n : Nat} {s : Session WindowFront}

open Session (Attended)

theorem attended_after {r : Reaction} (unbroken : s.failure = none)
    (serves : Window.Serves (scene s) r) : s.Attended (Running n) (after s r) where
  settings := rfl
  pace := rfl
  failure := serves.failure.trans unbroken.symm
  executed := serves.executed
  holds running := ⟨serves.range running.1, { running.2 with }⟩
  heeded cancelled := by
    rw [after, cancelled]
    rfl
  uninterrupted := id

theorem attended_happen (unbroken : s.failure = none) {h : Happening}
    (begun : ∀ player, h = .toneEnds player → s.outside.buzzer.Has player) :
    s.Attended (Running n) (happen s h) ∧
      (happen s h).outside.happenings = s.outside.happenings := by
  cases h with
  | window event =>
    exact ⟨attended_after unbroken (Window.handle_serves (legible_scene s _) event), rfl⟩
  | toneEnds player =>
    rw [happen, (begun player rfl).finish]
    refine ⟨⟨⟨rfl, rfl, rfl, rfl, fun running => ⟨running.1, ?_⟩⟩, id, id⟩, rfl⟩
    exact { running.2 with buzzer := { running.2.buzzer with } }

theorem attended_happenings (unbroken : s.failure = none) (running : Running n s.machine s.outside)
    (poll : Nat) :
    s.Attended (Running n)
      ((s.outside.happenings poll).foldl (fun s h => s.andThen (happen · h)) s) := by
  refine (List.foldlRecOn (motive := fun t => s.Attended (Running n) t ∧
    t.outside.happenings = s.outside.happenings) _ _ ⟨.refl s, rfl⟩ ?_).1
  intro t ⟨attended, same⟩ h mem
  have going : t.failure = none := attended.failure.trans unbroken
  have begun (player : Value) (ends : h = .toneEnds player) : t.outside.buzzer.Has player := by
    refine (attended.holds running).2.begun poll player ?_
    rwa [same, ← ends]
  obtain ⟨next, still⟩ := attended_happen (n := n) going begun
  rw [Session.andThen_of_unbroken going]
  exact ⟨attended.trans next, still.trans same⟩

theorem attended_poll (unbroken : s.failure = none) (running : Running n s.machine s.outside) :
    s.Attended (Running n) (poll s) := by
  have counted : s.Attended (Running n) { s with outside.polls := s.outside.polls + 1 } :=
    ⟨⟨rfl, rfl, rfl, rfl, fun running => ⟨running.1, { running.2 with }⟩⟩, id, id⟩
  have served := counted.trans (attended_after unbroken
    (Window.poll_serves (legible_scene s s.outside.window)))
  exact served.trans (attended_happenings (served.failure.trans unbroken) (served.holds running) _)

theorem attended_react (unbroken : s.failure = none) (running : Running n s.machine s.outside)
    (call : Call) : s.Attended (Running n) (react call s) := by
  cases call with
  | clear | render =>
    exact ⟨⟨rfl, rfl, rfl, rfl, fun running => ⟨running.1, { running.2 with }⟩⟩, id, id⟩
  | poll => exact attended_poll unbroken running
  | beep =>
    obtain ⟨failure, sounds, more⟩ := running.2.buzzer.beep
    refine ⟨⟨rfl, rfl, failure.trans unbroken.symm, rfl, fun running => ⟨running.1, ?_⟩⟩, id, id⟩
    exact
      { timeline := running.2.timeline
        buzzer := sounds
        begun := fun poll player ends => (running.2.begun poll player ends).more more }
  | sleep seconds =>
    simp only [react, running.2.timeline.wake]
    exact ⟨⟨rfl, rfl, rfl, rfl, fun running => ⟨running.1, { running.2 with }⟩⟩, id, fun _ => rfl⟩

theorem host_attends : host.Attends Running where
  attentive _ :=
    { invariant := Machine.inRange_invariant_and _
      react := fun call _ unbroken running => attended_react unbroken running call }
  clock running := ⟨running.1, { running.2 with timeline := running.2.timeline.read.2 }⟩
  fewer running := ⟨running.1, { running.2 with timeline := running.2.timeline.fewer }⟩

theorem host_exact {settings : Settings} (rates : settings.Whole) : host.Exact Running settings :=
  rates.exact fun running => running.2.timeline.read.1

/-- A session in a window follows the protocol, and no round of it is given up. -/
theorem keeps_protocol (rates : s.settings.Whole) {patience limit : Nat}
    (running : Running (2 * limit + 1) s.machine s.outside) (unbroken : s.failure = none)
    (uninterrupted : s.interrupted = false) :
    let run := s.watched.run host.watched patience limit
    Protocol True true s.settings limit s.cancelled s.machine run.2.outside.2 run.1
      run.2.machine :=
  Session.protocol_of_exact host_attends (host_exact rates) running unbroken uninterrupted

example : WindowFront.Runs 1000000000 { buzzer := { seconds := .whole 1 } } where
  timeline := ⟨0, 1000000, rfl, rfl, rfl, by decide +kernel⟩
  buzzer :=
    { pitch := ⟨440, rfl⟩
      variation := ⟨15, rfl⟩
      random := fun k => ⟨0, by simp [Supply.cycle]⟩
      length := Number.real_whole (n := 1) (by decide +kernel)
      size := ⟨88200, rfl⟩ }
  begun := nofun

end WindowFront

end ChipEight
