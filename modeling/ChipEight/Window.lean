import ChipEight.Argument.Arithmetic
import ChipEight.Decimal.Places
import ChipEight.Machine
import ChipEight.Window.Device

/-!
What happens to a window is queued, and the next poll delivers the queue in order. A render only
asks for the picture to be drawn.
-/

namespace ChipEight

inductive WindowKey where
  | character (c : Char)
  | escape
  | function (n : Nat)
  | other
  deriving DecidableEq, Repr

inductive WindowEvent where
  | draw
  | press (key : WindowKey)
  | release (key : WindowKey)
  | close
  deriving DecidableEq, Repr

structure Speeds where
  framesPerSecond : Value
  cyclesPerSecond : Value

structure Scene where
  machine : Machine
  speeds : Option Speeds := none
  journal : Journal := {}
  exits : Nat := 0

structure Window where
  scale : Nat := defaultScale
  caption : Value := .text "CHIP-8 Emulator"
  showsSpeeds : Bool := false
  queue : List WindowEvent := []
  /-- Where the picture is painted. Every drawing uses it again, and the image too. -/
  canvas : Canvas screenWidth screenHeight := .blank
  image : Image := { width := screenWidth * scale, height := screenHeight * scale }

structure Reaction where
  calls : List DeviceCall := []
  scene : Scene
  window : Window
  failure : Option Failure := none

namespace Speeds

def frameText (s : Speeds) : Except Failure String :=
  match s.framesPerSecond.toNumber? with
  | some n => n.real.map fun x => "FPS: " ++ Decimal.onePlace x
  | none => .error (.noFormat 'f' s.framesPerSecond)

def cycleText (s : Speeds) : String :=
  "Cycles/s: " ++ s.cyclesPerSecond.plain

end Speeds

namespace Window

/-- The scale that a value stands for: both sides of the window are multiplied by it, and the
product of the sides is what an image has room for. -/
def scaleOf (scale : Value) : Except Failure Nat := do
  let width ← (Value.whole screenWidth).times scale
  let height ← (Value.whole screenHeight).times scale
  let size ← (← (← width.times height).times (.whole Image.pixelSize)).asInteger (.material "bytes")
  if !fitsWord size then throw .endless
  if allotmentLimit < size.toNat then throw .noMemory
  return (scale.toInt?.getD 0).toNat

def width (w : Window) : Nat :=
  screenWidth * w.scale

def height (w : Window) : Nat :=
  screenHeight * w.scale

def opening (w : Window) : List DeviceCall := [
  .openWindow w.width w.height w.caption,
  .makeLabel "FPS: 0" (w.height - 15 : Int),
  .makeLabel "Cycles/s: 0" (w.height - 30 : Int)]

def labels (w : Window) (s : Scene) : Except Failure (List DeviceCall) :=
  match w.showsSpeeds, s.speeds with
  | true, some speeds =>
    speeds.frameText.map fun text => [.drawLabel text, .drawLabel speeds.cycleText]
  | _, _ => .ok []

def paint (w : Window) (f : Framebuffer screenWidth screenHeight) : Window :=
  let canvas := w.canvas.paint f
  let data := Image.bytesOf (canvas.enlarged w.scale)
  { w with canvas, image := w.image.setData "RGBA" (w.width * Image.pixelSize) data }

def drawn (s : Scene) : Scene :=
  { s with machine := { s.machine with screen := { s.machine.screen with dirty := false } } }

def withPad (s : Scene) (pad : HexPad) : Scene :=
  { s with machine := { s.machine with pad } }

def requestExit (s : Scene) : Scene :=
  { s with exits := s.exits + 1 }

/-- A key goes down: escape leaves, the first function key switches the journal over, and the keys
that stand for keys of the pad press them. -/
def press (s : Scene) : WindowKey → Scene
  | .escape => requestExit s
  | .function 1 => { s with journal := s.journal.toggle }
  | .character c =>
    match HexPad.keyAt? c with
    | some key => withPad s (s.machine.pad.press key)
    | none => s
  | _ => s

def release (s : Scene) : WindowKey → Scene
  | .character c =>
    match HexPad.keyAt? c with
    | some key => withPad s (s.machine.pad.release key)
    | none => s
  | _ => s

def close (s : Scene) : Scene :=
  requestExit { s with journal := s.journal.record [.windowClosed] }

def draw (w : Window) (s : Scene) : Reaction :=
  let window := w.paint s.machine.screen
  let picture := [.clear, .blit window.image]
  match w.labels s with
  | .ok labels => { calls := picture ++ labels, scene := drawn s, window }
  | .error failure => { calls := picture, scene := drawn s, window, failure := some failure }

def handle (w : Window) (s : Scene) : WindowEvent → Reaction
  | .draw => w.draw s
  | .press key => { scene := press s key, window := w }
  | .release key => { scene := release s key, window := w }
  | .close => { scene := close s, window := w }

/-- Acts on events in order, up to one that is broken off. The second part holds those left. -/
def handleAll (w : Window) (s : Scene) : List WindowEvent → Reaction × List WindowEvent
  | [] => ({ scene := s, window := w }, [])
  | e :: es =>
    let first := w.handle s e
    match first.failure with
    | some _ => (first, es)
    | none =>
      let (later, left) := first.window.handleAll first.scene es
      ({ later with calls := first.calls ++ later.calls }, left)

def enqueue (w : Window) (e : WindowEvent) : Window :=
  { w with queue := w.queue ++ [e] }

def poll (w : Window) (s : Scene) : Reaction :=
  let (r, queue) := w.handleAll s w.queue
  { r with calls := .dispatchEvents :: r.calls, window := { r.window with queue } }

/-- Asks for the scene to be drawn and shows what was drawn before. -/
def render (w : Window) : List DeviceCall × Window :=
  ([.switchTo, .flip], w.enqueue .draw)

end Window

end ChipEight
