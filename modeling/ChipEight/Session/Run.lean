import ChipEight.Session.Tick

/-!
A run ticks and sleeps in turn until the session is cancelled or broken off, the machine stops at a
fault or the user interrupts it.
-/

namespace ChipEight

inductive RunEnd where
  | cancelled
  | fault (fault : Fault)
  | broken (failure : Failure)
  | interrupted
  | unfinished

namespace Session

variable {σ : Type}

/-- A sleep between two ticks. The first part tells how the run ends, if it ends with this sleep. -/
def rest (h : Host σ) (s : Session σ) : Option RunEnd × Session σ :=
  let s := h.react (.sleep s.settings.idleSleep) s
  match s.failure with
  | some failure => (some (.broken failure), s.mended)
  | none => (if s.interrupted then some .interrupted else none, s)

/-- A tick and a sleep, unless the session is cancelled. The first part tells how the run ends,
if it ends with this round. -/
def round (h : Host σ) (patience : Nat) (s : Session σ) : Option RunEnd × Session σ :=
  if s.cancelled then (some .cancelled, s.note [.cancelled])
  else
    match s.tick h patience with
    | (.fault fault, s) => (some (.fault fault), s.note [.stopped s.machine.cycles fault])
    | (.broken failure, s) => (some (.broken failure), s)
    | (.unfinished, s) => (some .unfinished, s)
    | (.finished, s) => s.rest h

def rounds (h : Host σ) (patience : Nat) : Nat → Session σ → RunEnd × Session σ
  | 0, s => (.unfinished, s)
  | limit + 1, s =>
    match s.round h patience with
    | (some ending, s) => (ending, s)
    | (none, s) => rounds h patience limit s

def opened (h : Host σ) (s : Session σ) : Session σ :=
  (h.react .clear s).andThen (start h)

def run (h : Host σ) (patience limit : Nat) (s : Session σ) : RunEnd × Session σ :=
  let s := s.opened h
  match s.failure with
  | some failure => (.broken failure, s.mended)
  | none => rounds h patience limit s

end Session

end ChipEight
