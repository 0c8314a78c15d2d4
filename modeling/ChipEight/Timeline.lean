import ChipEight.Session

/-! A clock that moves on whenever it is read, and the sleeps that the user may interrupt. -/

namespace ChipEight

structure Timeline where
  time : Number := .whole 0
  /-- How far the clock moves on when it is read. -/
  stride : Value := .whole 1000000
  sleeps : Nat := 0
  interruptedAt : Option Value := none

namespace Timeline

/-- Reads the clock. It stands still, and shows nothing, where it cannot move on. -/
def read (t : Timeline) : Except Failure Value × Timeline :=
  match Value.reckon "+=" Number.plus (.number t.time) t.stride with
  | .ok time => (.ok (.number t.time), { t with time })
  | .error failure => (.error failure, t)

def seconds (t : Timeline) : Except Failure Number :=
  t.time.real.map fun x => .double (x / Float.ofNat nanoseconds)

def sleep (t : Timeline) : Timeline :=
  { t with sleeps := t.sleeps + 1 }

def isInterrupted (t : Timeline) : Except Failure Bool :=
  match t.interruptedAt with
  | some sleep => Value.compare .atLeast (.whole t.sleeps) sleep
  | none => .ok false

def wake {σ : Type} (t : Timeline) (s : Session σ) : Session σ :=
  match t.isInterrupted with
  | .ok interrupted => { s with interrupted }
  | .error failure => s.breakOff failure

end Timeline

end ChipEight
