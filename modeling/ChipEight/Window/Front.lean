import ChipEight.Session.Run
import ChipEight.Timeline
import ChipEight.Window
import ChipEight.Window.Buzzer

/-!
A session in a window: the picture, the keys and the buzzer all go through it. Leaving the window
cancels the session.
-/

namespace ChipEight

inductive Happening where
  | window (event : WindowEvent)
  | toneEnds (player : Value)

structure WindowFront where
  timeline : Timeline := {}
  window : Window := {}
  buzzer : Buzzer := {}
  polls : Nat := 0
  happenings : Nat → List Happening := fun _ => []
  calls : Array DeviceCall := #[]

namespace WindowFront

def call (f : WindowFront) (calls : List DeviceCall) : WindowFront :=
  { f with calls := f.calls ++ calls }

def enter (f : WindowFront) : WindowFront :=
  f.call f.window.opening

def leave (f : WindowFront) : WindowFront :=
  f.call [.closeWindow]

def scene (s : Session WindowFront) : Scene where
  machine := s.machine
  speeds := some ⟨.number (.double s.pace.frameRate.toFloat), .number (.whole s.pace.cycleRate)⟩
  journal := s.journal

def after (s : Session WindowFront) (r : Reaction) : Session WindowFront :=
  { s with
    machine := r.scene.machine
    journal := r.scene.journal
    cancelled := s.cancelled || r.scene.exits ≠ 0
    failure := r.failure
    outside := { s.outside with window := r.window }.call r.calls }

def happen (s : Session WindowFront) : Happening → Session WindowFront
  | .window event => after s (s.outside.window.handle (scene s) event)
  | .toneEnds player =>
    match s.outside.buzzer.finish player with
    | .ok (calls, buzzer) => { s with outside := { s.outside with buzzer }.call calls }
    | .error failure => s.breakOff failure

def poll (s : Session WindowFront) : Session WindowFront :=
  let polls := s.outside.polls + 1
  let s := after { s with outside := { s.outside with polls } } (s.outside.window.poll (scene s))
  (s.outside.happenings polls).foldl (fun s happening => s.andThen (happen · happening)) s

def beep (s : Session WindowFront) : Session WindowFront :=
  let beep := s.outside.buzzer.beep
  { s with
    failure := beep.failure
    outside := { s.outside with buzzer := beep.buzzer }.call beep.calls }

def react : Call → Session WindowFront → Session WindowFront
  | .clear, s => { s with outside := s.outside.call [.clear] }
  | .render, s =>
    let (calls, window) := s.outside.window.render
    { s with outside := { s.outside with window }.call calls }
  | .poll, s => poll s
  | .beep, s => beep s
  | .sleep _, s =>
    let timeline := s.outside.timeline.sleep
    timeline.wake { s with outside := { s.outside with timeline } }

def host : Host WindowFront where
  clock f :=
    let (t, timeline) := f.timeline.read
    (t, { f with timeline })
  react := react

end WindowFront

end ChipEight
