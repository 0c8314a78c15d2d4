import ChipEight.Argument.Arithmetic
import ChipEight.Terminal.Input
import ChipEight.Terminal.Keystroke

/-!
A terminal tells when a key goes down, but never when it goes up. Every keystroke counts as its key
being held for a while; polling releases the keys whose time has come and reads what was typed.
-/

namespace ChipEight

structure Keyboard where
  /-- How long a keystroke holds its key down. -/
  hold : Number := .double 0.1
  /-- The keys held and when their time is up, in the order they went down. -/
  held : List (Key × Value) := []
  reading : Bool := false
  saved : Option TerminalMode := none

namespace Keyboard

def readLimit : Nat := 64

def start (k : Keyboard) (input : Input) : Keyboard × Input :=
  match input with
  | .terminal t => ({ k with reading := true, saved := some t.mode }, .terminal t.enterRaw)
  | .queue bytes => ({ k with reading := true }, .queue bytes)

/-- Gives a saved mode back. What is typed is still read. -/
def stop (k : Keyboard) (input : Input) : Keyboard × Input :=
  match k.saved, input with
  | some m, .terminal t => ({ k with saved := none }, .terminal (t.enter m))
  | _, input => (k, input)

def renew (held : List (Key × Value)) (key : Key) (time : Value) : List (Key × Value) :=
  if held.any (·.1 = key) then held.map fun e => if e.1 = key then (key, time) else e
  else held ++ [(key, time)]

def strike (limit : Value) (key : Key) : Keyboard × HexPad × Nat → Keyboard × HexPad × Nat
  | (k, pad, exits) => ({ k with held := renew k.held key limit }, pad.press key, exits)

def countExit : Keyboard × HexPad × Nat → Keyboard × HexPad × Nat
  | (k, pad, exits) => (k, pad, exits + 1)

/-- What is typed, with its keys held until a given time. The last part tells how often the escape
key was read. -/
def typeUntil (k : Keyboard) (pad : HexPad) (limit : Value) (bytes : List UInt8) :
    Keyboard × HexPad × Nat :=
  Keystroke.scan bytes.toArray (strike limit) countExit 0 (k, pad, 0)

def type (k : Keyboard) (pad : HexPad) (now : Number) (bytes : List UInt8) :
    Keyboard × HexPad × Nat :=
  k.typeUntil pad (.number (now + k.hold)) bytes

def isDue (now : Value) (entry : Key × Value) : Bool :=
  match now.compare .atLeast entry.2 with
  | .ok due => due
  | .error _ => false

def expire (k : Keyboard) (pad : HexPad) (now : Value) : Keyboard × HexPad :=
  ({ k with held := k.held.filter fun e => !isDue now e },
    (k.held.filter (isDue now)).foldl (fun pad e => pad.release e.1) pad)

def available (k : Keyboard) (input : Input) : List UInt8 × Input :=
  if k.reading then input.read readLimit else ([], input)

def refresh (k : Keyboard) (pad : HexPad) (now : Value) (input : Input) :
    Keyboard × HexPad × List UInt8 × Input :=
  let (k, pad) := k.expire pad now
  let (typed, input) := k.available input
  (k, pad, typed, input)

def poll (k : Keyboard) (pad : HexPad) (now : Number) (input : Input) :
    Keyboard × HexPad × Input × Nat :=
  let (k, pad, typed, input) := k.refresh pad (.number now) input
  let (k, pad, exits) := k.type pad now typed
  (k, pad, input, exits)

end Keyboard

end ChipEight
