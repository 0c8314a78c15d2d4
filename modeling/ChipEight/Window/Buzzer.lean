import ChipEight.Argument.Arithmetic
import ChipEight.Argument.Template
import ChipEight.Supply
import ChipEight.Window.Device

/-!
A tone of fixed length whose pitch varies a little from beep to beep. What a beep has drawn or asked
for stands even if it fails.
-/

namespace ChipEight

structure Buzzer where
  pitch : Value := .whole 440
  seconds : Value := .double 0.2
  variation : Value := .whole 15
  random : Supply Value := .cycle (.whole 0) []
  isPlaying : Bool := false
  players : Nat := 0

structure Beep where
  calls : List DeviceCall := []
  buzzer : Buzzer
  failure : Option Failure := none

namespace Buzzer

def change (b : Buzzer) (field : String × Value) : Except Failure Buzzer :=
  match field with
  | ("frequency", v) => .ok { b with pitch := v }
  | ("duration", v) => .ok { b with seconds := v }
  | ("pitch_variation", v) => .ok { b with variation := v }
  | (name, _) => .error (.unknownSetting "PygletBuzzer" name)

def ofFields (fields : List (String × Value)) (random : Supply Value) : Except Failure Buzzer :=
  fields.foldlM change { random }

/-- A random number brought into the range from `low` to `high`. A text is taken for a template, and
whatever it is filled in with, it is no number. -/
def within (low : Number) (high random : Value) : Except Failure Number := do
  let size ← (← high.minus (.number low)).plus (.whole 1)
  if let .text template := random then
    Text.Template.fill template size
    throw (.operands "+" (.number low) random)
  low.plus (← Value.reckon "%" Number.modulo random (.number size))

def pitchFor (b : Buzzer) (lowest : Number) (random : Value) : Except Failure Number := do
  let offset ← within lowest b.variation random
  Value.reckon "+" Number.plus b.pitch (.number offset)

def tone (b : Buzzer) (pitch : Number) : Except Failure DeviceCall := do
  return .makeTone (← b.seconds.realBits) pitch

def toneSize (b : Buzzer) : Except Failure Int := do
  (← (Value.whole (DeviceCall.sampleSize * DeviceCall.sampleRate)).times b.seconds).integer

def beep (b : Buzzer) : Beep :=
  if b.isPlaying then { buzzer := b }
  else
    match b.variation.negated with
    | .error failure => { buzzer := b, failure }
    | .ok lowest =>
      let (random, rest) := b.random.next
      let b := { b with random := rest }
      match (b.pitchFor lowest random).bind b.tone with
      | .error failure => { buzzer := b, failure }
      | .ok call =>
        match b.toneSize with
        | .error failure => { calls := [call], buzzer := b, failure }
        | .ok _ =>
          { calls := [call, .queueTone, .play]
            buzzer := { b with isPlaying := true, players := b.players + 1 } }

/-- A player comes to the end of its tone. Players count from zero, or from minus one backwards. -/
def finish (b : Buzzer) (player : Value) : Except Failure (List DeviceCall × Buzzer) := do
  let n ← player.asInteger (.index "list")
  if !fitsWord n then throw .endlessIndex
  if -(b.players : Int) ≤ n ∧ n < b.players then
    return ([.deletePlayer], { b with isPlaying := false })
  else throw .noPlayer

end Buzzer

end ChipEight
