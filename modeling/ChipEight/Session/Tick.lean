import ChipEight.Session

/-!
A tick turns the time since the last one into instructions, then shows at most one frame, then
publishes the speeds if a second has passed. A burst that has used up its bound is `unfinished`.
-/

namespace ChipEight

inductive TickEnd where
  | finished
  | fault (fault : Fault)
  | broken (failure : Failure)
  | unfinished

namespace Session

variable {σ : Type}

def accrue (s : Session σ) (t : Value) : Except Failure (Session σ) :=
  match s.pace.marks with
  | none => .ok s
  | some marks => do
    let owed ← s.pace.owed.plus (← t.minus marks.lastTick)
    return { s with
      pace := { s.pace with
        owed := owed.least s.settings.maxCatchUp
        marks := some { marks with lastTick := t } } }

def spend : Attempt (Session σ) (Option Fault) := do
  let s ← get
  let owed ← s.pace.owed.minus s.settings.cyclePeriod
  set { s with pace := { s.pace with owed }, journal := s.machine.noteStep s.journal }
  .within machine (fun s machine => { s with machine }) Machine.step

def countCycle (s : Session σ) : Session σ :=
  { s with pace := { s.pace with cycles := s.pace.cycles + 1 } }

/-- Runs instructions while there is time owed for one, polling the input after each. -/
def burst (h : Host σ) : Nat → Session σ → TickEnd × Session σ
  | 0, s => (if s.settings.cyclePeriod ≤ s.pace.owed then .unfinished else .finished, s)
  | fuel + 1, s =>
    if s.settings.cyclePeriod ≤ s.pace.owed then
      match spend s with
      | .error failure s => (.broken failure, s)
      | .ok (some fault) s => (.fault fault, s)
      | .ok none s =>
        let s := h.react .poll s.countCycle
        match s.failure with
        | some failure => (.broken failure, s.mended)
        | none => burst h fuel s
    else (.finished, s)

def countFrame (s : Session σ) : Session σ :=
  { s with pace := { s.pace with frames := s.pace.frames + 1 } }

def frame (h : Host σ) (s : Session σ) : Session σ :=
  let s := { s with machine := { s.machine with timers := s.machine.timers.tick } }
  let s := if 0 < s.machine.timers.sound ∧ h.hasBuzzer then h.react .beep s else s
  (s.andThen (h.react .render)).andThen countFrame

def setLastFrame (s : Session σ) (marks : Marks) (t : Value) : Session σ :=
  { s with pace := { s.pace with marks := some { marks with lastFrame := t } } }

/-- Shows a frame if one is due. It counts as due one period after the last one, or now if that is
still a whole period ago. -/
def frameIfDue (h : Host σ) (s : Session σ) (t : Value) : Session σ :=
  match s.pace.marks with
  | none => s
  | some marks =>
    let period := s.settings.framePeriod
    match t.minus marks.lastFrame with
    | .error failure => s.breakOff failure
    | .ok since =>
      if period ≤ since then
        match marks.lastFrame.plus (.number period) with
        | .error failure => s.breakOff failure
        | .ok due =>
          match t.minus due with
          | .error failure => (s.setLastFrame marks due).breakOff failure
          | .ok late => frame h (s.setLastFrame marks (if period ≤ late then t else due))
      else s

def publish (t : Value) (s : Session σ) : Session σ :=
  match s.pace.marks with
  | none => s
  | some marks =>
    match t.minus marks.published with
    | .error failure => s.breakOff failure
    | .ok elapsed =>
      if .whole nanoseconds ≤ elapsed then
        { s with
          pace := { s.pace with
            frameRate := ⟨s.pace.frames, elapsed⟩
            cycleRate := s.pace.cycles
            frames := 0
            cycles := 0
            marks := some { marks with published := t } } }
      else s

def started (h : Host σ) (s : Session σ) : Session σ :=
  if s.pace.marks.isNone then s.start h else s

def concluded (s : Session σ) : TickEnd × Session σ :=
  match s.failure with
  | some failure => (.broken failure, s.mended)
  | none => (.finished, s)

/-- What a tick does with a reading of the clock. A burst runs at most as many instructions as there
are nanoseconds owed, and `patience` more. -/
def tickAt (h : Host σ) (patience : Nat) (t : Value) (s : Session σ) : TickEnd × Session σ :=
  match s.accrue t with
  | .error failure => (.broken failure, s)
  | .ok s =>
    match burst h (s.pace.owed.truncate.toNat + patience) s with
    | (.finished, s) => ((frameIfDue h s t).andThen (publish t)).concluded
    | other => other

def tick (h : Host σ) (patience : Nat) (s : Session σ) : TickEnd × Session σ :=
  let s := s.started h
  match s.failure with
  | some failure => (.broken failure, s.mended)
  | none =>
    match s.now h with
    | (.error failure, s) => (.broken failure, s)
    | (.ok t, s) => s.tickAt h patience t

end Session

end ChipEight
