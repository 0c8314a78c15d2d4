import ChipEight.Argument.Access
import ChipEight.Argument.Picture
import ChipEight.Machine

/-!
Commands that look into a machine and change it part by part. A refused command leaves its part as
it was, except that a sprite stays drawn above the row that was refused.
-/

namespace ChipEight

abbrev Reply (σ : Type) := Except Failure Value × σ

namespace Monitor

variable {σ τ : Type}

def argument (args : List Value) (place : Nat) : Value :=
  args.getD place .null

def reply (part : σ) (outcome : Except Failure (Value × σ)) : Reply σ :=
  match outcome with
  | .ok (answer, part) => (.ok answer, part)
  | .error failure => (.error failure, part)

def tell (part : σ) (answer : Value) : Reply σ :=
  (.ok answer, part)

def change (part : σ) (changed : Except Failure σ) : Reply σ :=
  reply part (changed.map (.null, ·))

def tried {α : Type} (answer : α → Value) (outcome : EStateM.Result Failure σ α) : Reply σ :=
  let (result, part) := Attempt.reply outcome
  (result.map answer, part)

def within (r : Option (Reply σ)) (whole : σ → τ) : Option (Reply τ) :=
  r.map fun (answer, part) => (answer, whole part)

def optional (n : Option Nat) : Value :=
  (n.map fun n => Value.whole n).getD .null

end Monitor

open Monitor

def Registers.obey (r : Registers) (word : String) (args : List Value) : Option (Reply Registers) :=
  let v := argument args 0
  match word with
  | "getv" => some (reply r ((r.getAt v).map fun n : Nat => (.whole n, r)))
  | "setv" => some (change r (r.setAt v (argument args 1)))
  | "geti" => some (tell r (.whole r.index))
  | "seti" => some (change r (v.integer.map r.setIndex))
  | "getpc" => some (tell r (.whole r.pc))
  | "setpc" => some (change r (v.integer.map r.setPc))
  | "advance" => some (change r (r.advanceBy (if args.isEmpty then .whole 2 else v)))
  | _ => none

def CallStack.obey (s : CallStack) (word : String) (args : List Value) : Option (Reply CallStack) :=
  match word with
  | "push" => some (tried (fun _ => .null) (pushValue (argument args 0) s))
  | "pop" => some (tried (fun address : Nat => .whole address) (pop s))
  | "peek" => some (tell s (optional s.peek))
  | "depth" => some (tell s (.whole s.depth))
  | _ => none

def Countdown.obey (c : Countdown) (word : String) (args : List Value) : Option (Reply Countdown) :=
  let v := argument args 0
  match word with
  | "decrement" =>
    let times := if args.isEmpty then .ok 1 else v.asInteger .count
    some (change c (times.map fun n => c.ticks n.toNat))
  | "setdt" => some (change c (v.integer.map c.setDelay))
  | "setst" => some (change c (v.integer.map c.setSound))
  | "getdt" => some (tell c (.whole c.delay))
  | "getst" => some (tell c (.whole c.sound))
  | _ => none

def HexPad.obey (p : HexPad) (word : String) (args : List Value) : Option (Reply HexPad) :=
  let v := argument args 0
  match word with
  | "press" => some (change p ((Key.ofValue v).map p.press))
  | "release" => some (change p ((Key.ofValue v "&=").map p.release))
  | "pressed" => some (reply p ((Key.ofValue v).map fun key => (.bool (p.isDown key), p)))
  | "begin_wait" => some (change p (.ok p.beginWait))
  | "take" => some (.ok (optional p.released), p.beginWait)
  | _ => none

def Framebuffer.obey {width height : Nat} (f : Framebuffer width height) (word : String)
    (args : List Value) (s : Sides := .ofLengths width height) :
    Option (Reply (Framebuffer width height)) :=
  let (x, y, v) := (argument args 0, argument args 1, argument args 2)
  match word with
  | "clear" => some (change f (f.clearAt s))
  | "get" => some (reply f ((f.getAt x y s).map fun cell => (.whole cell.toNat, f)))
  | "set" => some (change f (f.setAt x y v.isTrue s))
  | "draw" =>
    let (f, collision) := f.drawAt x y v s
    some (collision.map .bool, f)
  | "undirty" => some (change f (.ok { f with dirty := false }))
  | _ => none

def Machine.obey (m : Machine) (word : String) (args : List Value) : Option (Reply Machine) :=
  within (m.registers.obey word args) (fun registers => { m with registers })
    <|> within (m.stack.obey word args) (fun stack => { m with stack })
    <|> within (m.timers.obey word args) (fun timers => { m with timers })
    <|> within (m.pad.obey word args) (fun pad => { m with pad })
    <|> within (m.screen.obey word args) fun screen => { m with screen }

end ChipEight
