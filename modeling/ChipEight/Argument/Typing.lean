import ChipEight.Argument.Arithmetic
import ChipEight.Terminal.Keyboard

/-!
What is typed, given as values, at times that may be of any kind. A value that will not do ends the
typing, and the keystroke that it is part of is lost.
-/

namespace ChipEight

namespace Keystroke

inductive Progress where
  | idle
  | escaped
  | within (opener : UInt8) (body : List UInt8)
  deriving DecidableEq, Repr

def Progress.bytes : Progress → List UInt8
  | .idle => []
  | .escaped => [escapeByte]
  | .within opener body => escapeByte :: opener :: body

def Progress.after : Progress → UInt8 → Progress
  | .idle, b => if b = escapeByte then .escaped else .idle
  | .escaped, b => if isOpener b then .within b [] else .idle
  | .within opener body, b => if isCloser b then .idle else .within opener (body ++ [b])

def character? (v : Value) : Except Failure UInt8 := do
  if v.toNumber?.any (·.agrees (.whole escapeByte.toNat)) then return escapeByte
  let n ← v.asInteger .count
  if n < 0 ∨ 0x110000 ≤ n then throw (.notCharacter n)
  return if n ≤ 0xFF then lowByte n else 0xFF

def follower? (v : Value) : Except Failure UInt8 := do
  let n ← v.asInteger .sample
  if 0 ≤ n ∧ n ≤ 0xFF then return lowByte n else throw .notByte

def member? (v : Value) : Except Failure UInt8 := do
  let notBelow ← Value.compare .atMost (.whole 0x40) v
  let notAbove ← v.compare .atMost (.whole 0x7E)
  return if notBelow ∧ notAbove then 0x40 else 0

def Progress.read : Progress → Value → Except Failure UInt8
  | .idle => character?
  | .escaped => follower?
  | .within _ _ => member?

def typedFrom (p : Progress) : List Value → List UInt8 × Option Failure
  | [] => (p.bytes, none)
  | v :: vs =>
    match p.read v with
    | .error failure => ([], some failure)
    | .ok b =>
      match p.after b with
      | .idle =>
        let (bytes, failure) := typedFrom .idle vs
        (p.bytes ++ b :: bytes, failure)
      | next => typedFrom next vs

end Keystroke

namespace Keyboard

/-- A key goes down and is held for a while from a given time on. The key is down even if the time
until which it is held cannot be reckoned; nothing is typed after that. -/
def tryStrike (now hold : Value) (key : Key) :
    Keyboard × HexPad × Except Failure Nat → Keyboard × HexPad × Except Failure Nat
  | (k, pad, .error failure) => (k, pad, .error failure)
  | (k, pad, .ok exits) =>
    match now.plus hold with
    | .error failure => (k, pad.press key, .error failure)
    | .ok limit =>
      let (k, pad, exits) := strike limit key (k, pad, exits)
      (k, pad, .ok exits)

def tryType (k : Keyboard) (pad : HexPad) (now hold : Value) (bytes : List UInt8) :
    Keyboard × HexPad × Except Failure Nat :=
  Keystroke.scan bytes.toArray (tryStrike now hold)
    (fun (k, pad, exits) => (k, pad, exits.map (· + 1))) 0 (k, pad, .ok 0)

def typeValues (k : Keyboard) (pad : HexPad) (now hold : Value) (values : List Value) :
    Keyboard × HexPad × Except Failure Nat :=
  let (bytes, failure) := Keystroke.typedFrom .idle values
  let (k, pad, result) := k.tryType pad now hold bytes
  match failure with
  | some failure => (k, pad, result.bind fun _ => .error failure)
  | none => (k, pad, result)

/-- Releases the keys whose time is up and reads bytes. The last parts are the bytes read and what
is left of the input. Nothing is done at a time that does not compare with those of held keys. -/
def refreshAt (k : Keyboard) (pad : HexPad) (now : Value) (input : Input) :
    Except Failure (Keyboard × HexPad × List UInt8 × Input) := do
  let _ ← k.held.mapM fun entry => now.compare .atLeast entry.2
  return k.refresh pad now input

end Keyboard

end ChipEight
