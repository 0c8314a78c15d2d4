import ChipEight.Machine.Trace

/-!
A session paces a machine: instructions at one rate and frames at another, both driven by one clock
that counts nanoseconds. What lies outside of the machine is a `Host`, which answers a call with the
session as it leaves it.
-/

namespace ChipEight

abbrev nanoseconds : Nat := 1000000000

abbrev catchUpFrames : Nat := 4

def Frequency.period (f : Frequency) : Number :=
  (Number.whole nanoseconds).floorDiv f.perSecond

namespace Settings

def cyclePeriod (s : Settings) : Number :=
  s.cyclesPerSecond.period

def framePeriod (s : Settings) : Number :=
  s.frameRate.period

/-- The most time that a tick works off: a few frames, but at least one instruction. -/
def maxCatchUp (s : Settings) : Number :=
  (.whole catchUpFrames * s.framePeriod).greatest s.cyclePeriod

end Settings

structure Rate where
  events : Nat := 0
  span : Number := .whole 1
  deriving DecidableEq

def Rate.toFloat (r : Rate) : Float :=
  match r.span with
  | .whole n => (Dyadic.nearest (r.events * nanoseconds) n.toNat).toFloat
  | .double x => (Number.whole (r.events * nanoseconds : Nat)).toFloat / x

structure Marks where
  lastTick : Value
  /-- When the last frame was due. -/
  lastFrame : Value
  published : Value

structure Pace where
  /-- Nanoseconds not yet turned into instructions. -/
  owed : Number := .whole 0
  marks : Option Marks := none
  frameRate : Rate := {}
  /-- The instructions counted when the speeds were published last. -/
  cycleRate : Nat := 0
  frames : Nat := 0
  cycles : Nat := 0

structure Session (σ : Type) where
  machine : Machine
  settings : Settings
  pace : Pace := {}
  cancelled : Bool := false
  interrupted : Bool := false
  /-- Why the host broke off what the session is doing. -/
  failure : Option Failure := none
  journal : Journal := {}
  outside : σ

inductive Call where
  | clear
  | render
  | poll
  | beep
  | sleep (seconds : Number)
  deriving DecidableEq

structure Host (σ : Type) where
  clock : σ → Except Failure Value × σ
  react : Call → Session σ → Session σ
  hasBuzzer : Bool := true

namespace Session

variable {σ : Type}

def note (s : Session σ) (notes : List Note) : Session σ :=
  { s with journal := s.journal.record notes }

def configure (s : Session σ) (settings : Settings) : Session σ :=
  { s with settings, machine := s.machine.configure settings }.note [.paceSet settings]

def new (machine : Machine) (settings : Settings) (outside : σ) (journal : Journal := {}) :
    Session σ :=
  { machine, settings, journal, outside : Session σ }.configure settings

def cancel (s : Session σ) : Session σ :=
  { s with cancelled := true }

def breakOff (s : Session σ) (failure : Failure) : Session σ :=
  { s with failure := some failure }

def andThen (s : Session σ) (next : Session σ → Session σ) : Session σ :=
  if s.failure.isSome then s else next s

def mended (s : Session σ) : Session σ :=
  { s with failure := none }

def now (h : Host σ) (s : Session σ) : Except Failure Value × Session σ :=
  let (t, outside) := h.clock s.outside
  (t, { s with outside })

def start (h : Host σ) (s : Session σ) : Session σ :=
  match s.now h with
  | (.error failure, s) => s.breakOff failure
  | (.ok t, s) =>
    { s with
      pace := { s.pace with owed := .whole 0, marks := some ⟨t, t, t⟩, frames := 0, cycles := 0 } }

end Session

end ChipEight
