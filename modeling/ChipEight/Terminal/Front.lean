import ChipEight.Session.Run
import ChipEight.Terminal.Bell
import ChipEight.Terminal.Keyboard
import ChipEight.Terminal.Picture
import ChipEight.Timeline

/-!
A session in a terminal: the picture is written as text, the bell rings, and the keys are read from
what is typed. The escape key cancels the session.
-/

namespace ChipEight

structure TerminalFront where
  timeline : Timeline := {}
  keyboard : Keyboard := {}
  bell : Bell := {}
  input : Input := .queue []
  typed : Nat → List UInt8 := fun _ => []
  written : Array String := #[]

namespace TerminalFront

def enter (f : TerminalFront) : TerminalFront :=
  let (keyboard, input) := f.keyboard.start f.input
  { f with keyboard, input }

def leave (f : TerminalFront) : TerminalFront :=
  let (keyboard, input) := f.keyboard.stop f.input
  { f with keyboard, input }

def write (f : TerminalFront) (text : String) : TerminalFront :=
  { f with written := f.written.push text }

def output (f : TerminalFront) : String :=
  String.join f.written.toList

def sleep (f : TerminalFront) : TerminalFront :=
  let timeline := f.timeline.sleep
  { f with timeline, input := f.input.send (f.typed timeline.sleeps) }

def render (s : Session TerminalFront) : Session TerminalFront :=
  let (text, screen) := Picture.present s.machine.screen
  { s with machine := { s.machine with screen }, outside := s.outside.write text }

def atTime (call : Number → Session TerminalFront → Session TerminalFront)
    (s : Session TerminalFront) : Session TerminalFront :=
  match s.outside.timeline.seconds with
  | .ok now => call now s
  | .error failure => s.breakOff failure

def poll (now : Number) (s : Session TerminalFront) : Session TerminalFront :=
  let f := s.outside
  let (keyboard, pad, input, exits) := f.keyboard.poll s.machine.pad now f.input
  let s := { s with machine := { s.machine with pad }, outside := { f with keyboard, input } }
  if exits = 0 then s else (s.note (List.replicate exits .escapePressed)).cancel

def beep (now : Number) (s : Session TerminalFront) : Session TerminalFront :=
  match s.outside.bell.beep (.number now) with
  | .ok (text, bell) => { s with outside := { s.outside with bell }.write text }
  | .error failure => s.breakOff failure

def react : Call → Session TerminalFront → Session TerminalFront
  | .clear, s => { s with outside := s.outside.write Picture.wipe }
  | .render, s => render s
  | .poll, s => atTime poll s
  | .beep, s => atTime beep s
  | .sleep _, s =>
    let outside := s.outside.sleep
    outside.timeline.wake { s with outside }

def host : Host TerminalFront where
  clock f :=
    let (t, timeline) := f.timeline.read
    (t, { f with timeline })
  react := react

end TerminalFront

end ChipEight
