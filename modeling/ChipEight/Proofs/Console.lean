import ChipEight.Terminal.Keyboard

/-!
All that is asked of a keyboard, with what it does to the input that it reads and to the pad that it
presses. How often the escape key was read is counted.
-/

namespace ChipEight

structure Console where
  keyboard : Keyboard := {}
  pad : HexPad := {}
  input : Input
  exits : Nat := 0

namespace Console

def start (c : Console) : Console :=
  let (keyboard, input) := c.keyboard.start c.input
  { c with keyboard, input }

def stop (c : Console) : Console :=
  let (keyboard, input) := c.keyboard.stop c.input
  { c with keyboard, input }

def poll (now : Number) (c : Console) : Console :=
  let (keyboard, pad, input, exits) := c.keyboard.poll c.pad now c.input
  { keyboard, pad, input, exits := c.exits + exits }

def type (now : Number) (bytes : List UInt8) (c : Console) : Console :=
  let (keyboard, pad, exits) := c.keyboard.type c.pad now bytes
  { c with keyboard, pad, exits := c.exits + exits }

def send (bytes : List UInt8) (c : Console) : Console :=
  { c with input := c.input.send bytes }

inductive Action where
  | start
  | stop
  | poll (now : Number)
  | type (now : Number) (bytes : List UInt8)
  | send (bytes : List UInt8)

def perform (c : Console) : Action → Console
  | .start => c.start
  | .stop => c.stop
  | .poll now => c.poll now
  | .type now bytes => c.type now bytes
  | .send bytes => c.send bytes

def performAll (c : Console) (actions : List Action) : Console :=
  actions.foldl perform c

end Console

end ChipEight
