import ChipEight.Proofs.Frame
import ChipEight.Session.Tick

/-!
While rates and clock readings are whole, all that a tick does with time is arithmetic on the ledger
of the session.
-/

namespace ChipEight

/-! ### Ledgers -/

/-- What a session keeps of time, in nanoseconds, and what it has counted. -/
structure Ledger where
  owed : Int
  lastTick : Int
  lastFrame : Int
  published : Int
  executed : Nat
  cycles : Nat
  frames : Nat

namespace Ledger

variable (cycle frame : Int)

def backlog (l : Ledger) (t : Int) : Int :=
  min (l.owed + (t - l.lastTick)) (max (4 * frame) cycle)

def accrue (l : Ledger) (t : Int) : Ledger :=
  { l with owed := l.backlog cycle frame t, lastTick := t }

def spend (l : Ledger) : Ledger :=
  { l with owed := l.owed - cycle, executed := l.executed + 1, cycles := l.cycles + 1 }

def burst (l : Ledger) : Ledger :=
  { l with
    owed := l.owed % cycle
    executed := l.executed + (l.owed / cycle).toNat
    cycles := l.cycles + (l.owed / cycle).toNat }

def frameIfDue (l : Ledger) (t : Int) : Ledger :=
  if frame ≤ t - l.lastFrame then
    { l with
      lastFrame := if frame ≤ t - (l.lastFrame + frame) then t else l.lastFrame + frame
      frames := l.frames + 1 }
  else l

def publish (l : Ledger) (t : Int) : Ledger :=
  if nanoseconds ≤ t - l.published then { l with published := t, cycles := 0, frames := 0 } else l

def tick (l : Ledger) (t : Int) : Ledger :=
  (((l.accrue cycle frame t).burst cycle).frameIfDue frame t).publish t

variable {cycle frame}

theorem backlog_nonneg {l : Ledger} {t : Int} (positive : 0 < cycle) (owed : 0 ≤ l.owed)
    (later : l.lastTick ≤ t) : 0 ≤ l.backlog cycle frame t := by
  unfold backlog
  omega

theorem burst_of_short {l : Ledger} (owed : 0 ≤ l.owed) (short : l.owed < cycle) :
    l.burst cycle = l := by
  simp only [burst, Int.emod_eq_of_lt owed short, Int.ediv_eq_zero_of_lt owed short,
    Int.toNat_zero, Nat.add_zero]

theorem burst_spend {l : Ledger} (positive : 0 < cycle) (time : cycle ≤ l.owed) :
    (l.spend cycle).burst cycle = l.burst cycle := by
  have one : 1 ≤ l.owed / cycle := by
    rw [Int.le_ediv_iff_mul_le positive, Int.one_mul]
    exact time
  have fewer : (l.owed - cycle) / cycle = l.owed / cycle - 1 := by
    rw [Int.sub_ediv_of_dvd _ (Int.dvd_refl cycle), Int.ediv_self (by omega)]
  have counted (n : Nat) :
      n + 1 + ((l.owed - cycle) / cycle).toNat = n + (l.owed / cycle).toNat := by
    rw [fewer]
    omega
  simp only [burst, spend, Int.sub_emod_right, counted]

theorem frameIfDue_owed (l : Ledger) (t : Int) : (l.frameIfDue frame t).owed = l.owed := by
  unfold frameIfDue
  split <;> rfl

theorem frameIfDue_lastTick (l : Ledger) (t : Int) :
    (l.frameIfDue frame t).lastTick = l.lastTick := by
  unfold frameIfDue
  split <;> rfl

theorem frameIfDue_executed (l : Ledger) (t : Int) :
    (l.frameIfDue frame t).executed = l.executed := by
  unfold frameIfDue
  split <;> rfl

theorem publish_owed (l : Ledger) (t : Int) : (l.publish t).owed = l.owed := by
  unfold publish
  split <;> rfl

theorem publish_lastTick (l : Ledger) (t : Int) : (l.publish t).lastTick = l.lastTick := by
  unfold publish
  split <;> rfl

theorem publish_executed (l : Ledger) (t : Int) : (l.publish t).executed = l.executed := by
  unfold publish
  split <;> rfl

theorem tick_owed (l : Ledger) (t : Int) :
    (l.tick cycle frame t).owed = l.backlog cycle frame t % cycle := by
  rw [tick, publish_owed, frameIfDue_owed]
  rfl

theorem tick_lastTick (l : Ledger) (t : Int) : (l.tick cycle frame t).lastTick = t := by
  rw [tick, publish_lastTick, frameIfDue_lastTick]
  rfl

theorem tick_executed (l : Ledger) (t : Int) :
    (l.tick cycle frame t).executed =
      l.executed + (l.backlog cycle frame t / cycle).toNat := by
  rw [tick, publish_executed, frameIfDue_executed]
  rfl

theorem tick_owed_bounds (positive : 0 < cycle) (l : Ledger) (t : Int) :
    0 ≤ (l.tick cycle frame t).owed ∧ (l.tick cycle frame t).owed < cycle := by
  rw [tick_owed]
  exact ⟨Int.emod_nonneg _ (by omega), Int.emod_lt_of_pos _ positive⟩

/-- What a tick works off goes into instructions or stays owed. -/
theorem tick_total {l : Ledger} {t : Int} (positive : 0 < cycle)
    (backlog : 0 ≤ l.backlog cycle frame t) :
    cycle * (l.tick cycle frame t).executed + (l.tick cycle frame t).owed =
      cycle * l.executed + l.backlog cycle frame t := by
  have count : 0 ≤ l.backlog cycle frame t / cycle :=
    Int.ediv_nonneg backlog (Int.le_of_lt positive)
  have split := Int.mul_ediv_add_emod (l.backlog cycle frame t) cycle
  rw [tick_owed, tick_executed, Int.natCast_add, Int.toNat_of_nonneg count, Int.mul_add]
  omega

end Ledger

/-! ### Sessions with a ledger -/

namespace Session

variable {σ : Type} {I : Machine → σ → Prop} {s t : Session σ} {cycle frame : Int} {l : Ledger}
  {h : Host σ}

/-- A started session with whole periods and a whole ledger that was not broken off, with a property
of the machine and of what lies outside. -/
structure Paced (s : Session σ) (I : Machine → σ → Prop) (cycle frame : Int) (l : Ledger) :
    Prop where
  cyclePeriod : s.settings.cyclePeriod = .whole cycle
  framePeriod : s.settings.framePeriod = .whole frame
  owed : s.pace.owed = .whole l.owed
  marks : s.pace.marks = some ⟨.whole l.lastTick, .whole l.lastFrame, .whole l.published⟩
  cycles : s.pace.cycles = l.cycles
  frames : s.pace.frames = l.frames
  executed : s.machine.cycles = l.executed
  unbroken : s.failure = none
  holds : I s.machine s.outside

/-- What may happen to a session between the steps of its own: keys, pictures, sounds and whatever
else lies outside, but nothing that touches the clock or runs the machine. -/
structure Undisturbed (I : Machine → σ → Prop) (s t : Session σ) : Prop where
  settings : t.settings = s.settings
  pace : t.pace = s.pace
  failure : t.failure = s.failure
  executed : t.machine.cycles = s.machine.cycles
  holds : I s.machine s.outside → I t.machine t.outside

theorem Undisturbed.refl (s : Session σ) : Undisturbed I s s :=
  ⟨rfl, rfl, rfl, rfl, id⟩

theorem Undisturbed.trans {u : Session σ} (first : Undisturbed I s t) (rest : Undisturbed I t u) :
    Undisturbed I s u where
  settings := rest.settings.trans first.settings
  pace := rest.pace.trans first.pace
  failure := rest.failure.trans first.failure
  executed := rest.executed.trans first.executed
  holds := rest.holds ∘ first.holds

structure Reads (s : Session σ) (h : Host σ) (I : Machine → σ → Prop) (t : Int) : Prop where
  shows : (h.clock s.outside).1 = .ok (.whole t)
  holds : I s.machine s.outside → I s.machine (h.clock s.outside).2

theorem Reads.undisturbed {t : Int} (reads : s.Reads h I t) :
    Undisturbed I s { s with outside := (h.clock s.outside).2 } :=
  ⟨rfl, rfl, rfl, rfl, reads.holds⟩

theorem Paced.undisturbed (paced : s.Paced I cycle frame l) (quiet : Undisturbed I s t) :
    t.Paced I cycle frame l where
  cyclePeriod := by rw [quiet.settings, paced.cyclePeriod]
  framePeriod := by rw [quiet.settings, paced.framePeriod]
  owed := by rw [quiet.pace, paced.owed]
  marks := by rw [quiet.pace, paced.marks]
  cycles := by rw [quiet.pace, paced.cycles]
  frames := by rw [quiet.pace, paced.frames]
  executed := by rw [quiet.executed, paced.executed]
  unbroken := by rw [quiet.failure, paced.unbroken]
  holds := quiet.holds paced.holds

end Session

structure Machine.Invariant {σ : Type} (I : Machine → σ → Prop) : Prop where
  range : ∀ {m outside}, I m outside → m.InRange
  step : ∀ {m next outside}, I m outside → m.step = .ok none next → I next outside
  countDown : ∀ {m outside}, I m outside → I { m with timers := m.timers.tick } outside

theorem Machine.InRange.next {m next : Machine} (range : m.InRange)
    (stepped : m.step = .ok none next) : next.InRange := by
  obtain ⟨_, after, answered, kept⟩ := range.step
  rw [stepped] at answered
  cases answered
  exact kept

theorem Machine.inRange_invariant {σ : Type} :
    Machine.Invariant fun (m : Machine) (_ : σ) => m.InRange where
  range range := range
  step range stepped := range.next stepped
  countDown range := { range with timers := range.timers.tick }

/-- As long as a property holds, the host neither sets the session other rates nor breaks it off nor
runs the machine, and the property goes on to hold. -/
def Host.Steady {σ : Type} (h : Host σ) (I : Machine → σ → Prop) : Prop :=
  ∀ call s, s.failure = none → I s.machine s.outside → Session.Undisturbed I s (h.react call s)

namespace Session

variable {σ : Type} {I : Machine → σ → Prop} {s : Session σ} {cycle frame : Int} {l : Ledger}
  {h : Host σ}

theorem Paced.react (paced : s.Paced I cycle frame l) (steady : h.Steady I) (call : Call) :
    (h.react call s).Paced I cycle frame l :=
  paced.undisturbed (steady call s paced.unbroken paced.holds)

/-! ### The parts of a tick -/

theorem maxCatchUp_whole (cycles : s.settings.cyclePeriod = .whole cycle)
    (frames : s.settings.framePeriod = .whole frame) :
    s.settings.maxCatchUp = .whole (max (4 * frame) cycle) := by
  rw [Settings.maxCatchUp, cycles, frames, Number.whole_mul_whole, Number.greatest_whole]
  rfl

theorem accrue_whole {owed last : Int} (cycles : s.settings.cyclePeriod = .whole cycle)
    (frames : s.settings.framePeriod = .whole frame) (owes : s.pace.owed = .whole owed)
    {marks : Marks} (begun : s.pace.marks = some marks) (lastTick : marks.lastTick = .whole last)
    (t : Int) :
    s.accrue (.whole t) = .ok { s with pace := { s.pace with
      owed := .whole (min (owed + (t - last)) (max (4 * frame) cycle))
      marks := some { marks with lastTick := .whole t } } } := by
  simp only [accrue, begun, lastTick, owes, Value.minus_whole, Number.plus_whole,
    maxCatchUp_whole cycles frames, bind, Except.bind, pure, Except.pure, Number.least_whole]

theorem accrue_of_paced (paced : s.Paced I cycle frame l) (t : Int) :
    ∃ after, s.accrue (.whole t) = .ok after ∧
      after.Paced I cycle frame (l.accrue cycle frame t) :=
  ⟨_, accrue_whole paced.cyclePeriod paced.framePeriod paced.owed paced.marks rfl t,
    { paced with owed := rfl, marks := rfl }⟩

def Stopped (I : Machine → σ → Prop) (outcome : TickEnd × Session σ) : Prop :=
  ∃ fault m outside left, outcome.1 = .fault fault ∧ I m outside ∧ m.step = .ok (some fault) left

theorem spend_of_paced (invariant : Machine.Invariant I) (paced : s.Paced I cycle frame l) :
    (∃ fault left, spend s = .ok (some fault) left ∧
        s.machine.step = .ok (some fault) left.machine) ∨
      ∃ after, spend s = .ok none after ∧ after.countCycle.Paced I cycle frame (l.spend cycle) := by
  have range := invariant.range paced.holds
  obtain ⟨answer, machine, stepped, _⟩ := range.step
  have spent : spend s = .ok answer { s with
      pace := { s.pace with owed := .whole (l.owed - cycle) }
      journal := s.machine.noteStep s.journal
      machine } := by
    have ran (pace : Pace) (journal : Journal) :
        Attempt.within Session.machine (fun s machine => { s with machine }) Machine.step
          { s with pace, journal } = .ok answer { s with pace, journal, machine } :=
      Attempt.within_of_ok stepped
    rw [spend, Attempt.get_bind, paced.owed, paced.cyclePeriod, Number.minus_whole]
    exact ran _ _
  cases answer with
  | some fault => exact .inl ⟨fault, _, spent, stepped⟩
  | none =>
    obtain ⟨_, _, counted⟩ := Machine.step_counts stepped
    refine .inr ⟨_, spent, ?_⟩
    exact { paced with
      owed := rfl
      cycles := congrArg (· + 1) paced.cycles
      executed := counted.trans (congrArg (· + 1) paced.executed)
      holds := invariant.step paced.holds stepped }

theorem cyclePeriod_le_owed (paced : s.Paced I cycle frame l) :
    s.settings.cyclePeriod ≤ s.pace.owed ↔ cycle ≤ l.owed := by
  rw [paced.cyclePeriod, paced.owed, Number.whole_le_whole]

theorem burst_of_idle (short : ¬ s.settings.cyclePeriod ≤ s.pace.owed) (fuel : Nat) :
    burst h fuel s = (.finished, s) := by
  cases fuel with
  | zero => rw [burst, if_neg short]
  | succ fuel => rw [burst, if_neg short]

theorem burst_of_short (paced : s.Paced I cycle frame l) (owed : 0 ≤ l.owed) (short : l.owed < cycle)
    (fuel : Nat) : burst h fuel s = (.finished, s) ∧ s.Paced I cycle frame (l.burst cycle) := by
  have ends : ¬ s.settings.cyclePeriod ≤ s.pace.owed := by
    rw [cyclePeriod_le_owed paced]
    omega
  exact ⟨burst_of_idle ends fuel, by rw [Ledger.burst_of_short owed short]; exact paced⟩

theorem burst_of_paced (invariant : Machine.Invariant I) (steady : h.Steady I)
    (positive : 0 < cycle) (paced : s.Paced I cycle frame l) (owed : 0 ≤ l.owed) {fuel : Nat}
    (enough : l.owed ≤ fuel) :
    Stopped I (burst h fuel s) ∨
      ∃ after, burst h fuel s = (.finished, after) ∧ after.Paced I cycle frame (l.burst cycle) := by
  -- an instruction costs at least a nanosecond, so the fuel outlasts the time owed
  induction fuel generalizing s l with
  | zero => exact .inr ⟨s, burst_of_short paced owed (by omega) 0⟩
  | succ fuel ih =>
    by_cases time : cycle ≤ l.owed
    · have goes := (cyclePeriod_le_owed paced).mpr time
      rcases spend_of_paced invariant paced with
        ⟨fault, left, spent, stopped⟩ | ⟨after, spent, counted⟩
      · refine .inl ⟨fault, s.machine, s.outside, left.machine, ?_, paced.holds, stopped⟩
        simp only [burst, if_pos goes, spent]
      · have polled := counted.react steady .poll
        have continues : burst h (fuel + 1) s = burst h fuel (h.react .poll after.countCycle) := by
          simp only [burst, if_pos goes, spent, polled.unbroken]
        rw [continues, ← Ledger.burst_spend positive time]
        exact ih polled (by simp only [Ledger.spend]; omega) (by simp only [Ledger.spend]; omega)
    · exact .inr ⟨s, burst_of_short paced owed (by omega) (fuel + 1)⟩

theorem andThen_of_unbroken (unbroken : s.failure = none) (next : Session σ → Session σ) :
    s.andThen next = next s := by
  simp only [andThen, unbroken, Option.isSome_none, Bool.false_eq_true, if_false]

theorem andThen_of_paced (paced : s.Paced I cycle frame l) (next : Session σ → Session σ) :
    s.andThen next = next s :=
  andThen_of_unbroken paced.unbroken next

theorem countFrame_of_paced (paced : s.Paced I cycle frame l) :
    s.countFrame.Paced I cycle frame { l with frames := l.frames + 1 } :=
  { paced with frames := congrArg (· + 1) paced.frames }

def countedDown (s : Session σ) : Session σ :=
  { s with machine := { s.machine with timers := s.machine.timers.tick } }

def sounded (h : Host σ) (s : Session σ) : Session σ :=
  if 0 < s.countedDown.machine.timers.sound ∧ h.hasBuzzer then h.react .beep s.countedDown
  else s.countedDown

theorem sounded_undisturbed (invariant : Machine.Invariant I) (steady : h.Steady I)
    (unbroken : s.failure = none) (holds : I s.machine s.outside) :
    Undisturbed I s (s.sounded h) := by
  have counted : Undisturbed I s s.countedDown := ⟨rfl, rfl, rfl, rfl, invariant.countDown⟩
  unfold sounded
  split
  · have heard := steady .beep s.countedDown unbroken (counted.holds holds)
    exact ⟨heard.settings, heard.pace, heard.failure, heard.executed, fun _ =>
      heard.holds (counted.holds holds)⟩
  · exact counted

theorem frame_of_unbroken (invariant : Machine.Invariant I) (steady : h.Steady I)
    (unbroken : s.failure = none) (holds : I s.machine s.outside) :
    Session.frame h s = (h.react .render (s.sounded h)).countFrame := by
  have quiet := sounded_undisturbed invariant steady unbroken holds
  have heard := quiet.failure.trans unbroken
  have shown := (steady .render (s.sounded h) heard (quiet.holds holds)).failure.trans heard
  rw [← andThen_of_unbroken shown countFrame, ← andThen_of_unbroken heard (h.react .render)]
  rfl

theorem frame_of_paced (invariant : Machine.Invariant I) (steady : h.Steady I)
    (paced : s.Paced I cycle frame l) :
    (Session.frame h s).Paced I cycle frame { l with frames := l.frames + 1 } := by
  have heard : (s.sounded h).Paced I cycle frame l :=
    paced.undisturbed (sounded_undisturbed invariant steady paced.unbroken paced.holds)
  rw [frame_of_unbroken invariant steady paced.unbroken paced.holds]
  exact countFrame_of_paced (heard.react steady .render)

theorem setLastFrame_of_paced (paced : s.Paced I cycle frame l) (t : Int) :
    (s.setLastFrame ⟨.whole l.lastTick, .whole l.lastFrame, .whole l.published⟩ (.whole t)).Paced
      I cycle frame { l with lastFrame := t } :=
  { paced with marks := rfl }

theorem frameIfDue_whole (paced : s.Paced I cycle frame l) (t : Int) :
    s.frameIfDue h (.whole t) =
      if frame ≤ t - l.lastFrame then
        Session.frame h (s.setLastFrame
          ⟨.whole l.lastTick, .whole l.lastFrame, .whole l.published⟩
          (.whole (if frame ≤ t - (l.lastFrame + frame) then t else l.lastFrame + frame)))
      else s := by
  simp only [frameIfDue, paced.marks, paced.framePeriod, Value.minus_whole, Value.plus_whole,
    Number.whole_le_whole, ← apply_ite Value.whole]

theorem frameIfDue_of_paced (invariant : Machine.Invariant I) (steady : h.Steady I)
    (paced : s.Paced I cycle frame l) (t : Int) :
    (s.frameIfDue h (.whole t)).Paced I cycle frame (l.frameIfDue frame t) := by
  rw [frameIfDue_whole paced, Ledger.frameIfDue]
  by_cases due : frame ≤ t - l.lastFrame
  · rw [if_pos due, if_pos due]
    exact frame_of_paced invariant steady (setLastFrame_of_paced paced _)
  · rw [if_neg due, if_neg due]
    exact paced

theorem publish_of_paced (paced : s.Paced I cycle frame l) (t : Int) :
    (s.publish (.whole t)).Paced I cycle frame (l.publish t) := by
  simp only [publish, paced.marks, Value.minus_whole, Number.whole_le_whole, Ledger.publish]
  by_cases second : nanoseconds ≤ t - l.published
  · rw [if_pos second, if_pos second]
    exact { paced with marks := rfl, cycles := rfl, frames := rfl }
  · rw [if_neg second, if_neg second]
    exact paced

/-! ### Starts and ticks -/

structure Ready (s : Session σ) (I : Machine → σ → Prop) (cyclesPerSecond frameRate : Nat) :
    Prop where
  cyclesPerSecond : s.settings.cyclesPerSecond.perSecond = .whole cyclesPerSecond
  frameRate : s.settings.frameRate.perSecond = .whole frameRate
  unbroken : s.failure = none
  holds : I s.machine s.outside

theorem period_of_whole {f : Frequency} {n : Nat} (whole : f.perSecond = .whole n) :
    f.period = .whole (nanoseconds / n : Nat) := by
  rw [Frequency.period, whole, Number.floorDiv, Int.fdiv_eq_ediv_of_nonneg _ (Int.natCast_nonneg n)]
  rfl

theorem start_of_periods (cycles : s.settings.cyclePeriod = .whole cycle)
    (frames : s.settings.framePeriod = .whole frame) (unbroken : s.failure = none)
    (holds : I s.machine s.outside) {t : Int} (reads : s.Reads h I t) :
    (s.start h).Paced I cycle frame
      { owed := 0, lastTick := t, lastFrame := t, published := t
        executed := s.machine.cycles, cycles := 0, frames := 0 } := by
  simp only [start, now, reads.shows]
  exact
    { cyclePeriod := cycles
      framePeriod := frames
      owed := rfl
      marks := rfl
      cycles := rfl
      frames := rfl
      executed := rfl
      unbroken := unbroken
      holds := reads.holds holds }

theorem start_of_ready {cyclesPerSecond frameRate : Nat}
    (ready : s.Ready I cyclesPerSecond frameRate) {t : Int} (reads : s.Reads h I t) :
    (s.start h).Paced I (nanoseconds / cyclesPerSecond : Nat) (nanoseconds / frameRate : Nat)
      { owed := 0, lastTick := t, lastFrame := t, published := t
        executed := s.machine.cycles, cycles := 0, frames := 0 } :=
  start_of_periods (period_of_whole ready.cyclesPerSecond) (period_of_whole ready.frameRate)
    ready.unbroken ready.holds reads

theorem tickAt_of_stopped {t : Value} {grown : Session σ} {patience : Nat}
    (accrued : s.accrue t = .ok grown)
    (stopped : Stopped I (burst h (grown.pace.owed.truncate.toNat + patience) grown)) :
    Stopped I (s.tickAt h patience t) := by
  obtain ⟨fault, m, outside, left, ended, holds, stopped⟩ := stopped
  refine ⟨fault, m, outside, left, ?_, holds, stopped⟩
  simp only [tickAt, accrued]
  split
  · rename_i finished
    rw [finished] at ended
    cases ended
  · exact ended

theorem tickAt_of_burst (invariant : Machine.Invariant I) (steady : h.Steady I) {t : Int}
    {grown worked : Session σ} {patience : Nat} (accrued : s.accrue (.whole t) = .ok grown)
    (ended : burst h (grown.pace.owed.truncate.toNat + patience) grown = (.finished, worked))
    (spent : worked.Paced I cycle frame l) :
    ∃ after, s.tickAt h patience (.whole t) = (.finished, after) ∧
      after.Paced I cycle frame ((l.frameIfDue frame t).publish t) := by
  have framed := frameIfDue_of_paced invariant steady spent t
  have published := publish_of_paced framed t
  refine ⟨_, ?_, published⟩
  simp only [tickAt, accrued, ended, andThen_of_paced framed, concluded, published.unbroken]

theorem tickAt_of_paced (invariant : Machine.Invariant I) (steady : h.Steady I)
    (positive : 0 < cycle) (paced : s.Paced I cycle frame l) {t : Int}
    (backlog : 0 ≤ l.backlog cycle frame t) (patience : Nat) :
    Stopped I (s.tickAt h patience (.whole t)) ∨
      ∃ after, s.tickAt h patience (.whole t) = (.finished, after) ∧
        after.Paced I cycle frame (l.tick cycle frame t) := by
  obtain ⟨grown, accrued, owing⟩ := accrue_of_paced paced t
  have enough : (l.accrue cycle frame t).owed ≤
      (grown.pace.owed.truncate.toNat + patience : Nat) := by
    rw [owing.owed, Number.truncate]
    omega
  rcases burst_of_paced invariant steady positive owing backlog enough with
    stopped | ⟨worked, ended, spent⟩
  · exact .inl (tickAt_of_stopped accrued stopped)
  · exact .inr (tickAt_of_burst invariant steady accrued ended spent)

theorem tick_of_reading (paced : s.Paced I cycle frame l) {t : Int}
    (shows : (h.clock s.outside).1 = .ok (.whole t)) (patience : Nat) :
    s.tick h patience =
      tickAt h patience (.whole t) { s with outside := (h.clock s.outside).2 } := by
  have going : s.started h = s := by
    simp only [started, paced.marks, Option.isNone_some, Bool.false_eq_true, if_false]
  have read : s.now h = (.ok (.whole t), { s with outside := (h.clock s.outside).2 }) := by
    simp only [now, shows]
  simp only [tick, going, paced.unbroken, read]

/-- A tick at a clock reading finishes with the ledger of `Ledger.tick`, unless the machine stops at
a fault. -/
theorem tick_of_paced (invariant : Machine.Invariant I) (steady : h.Steady I) (positive : 0 < cycle)
    (paced : s.Paced I cycle frame l) {t : Int} (reads : s.Reads h I t)
    (backlog : 0 ≤ l.backlog cycle frame t) (patience : Nat) :
    Stopped I (s.tick h patience) ∨
      ∃ after, s.tick h patience = (.finished, after) ∧
        after.Paced I cycle frame (l.tick cycle frame t) := by
  rw [tick_of_reading paced reads.shows]
  exact tickAt_of_paced invariant steady positive (paced.undisturbed reads.undisturbed) backlog
    patience

/-! ### Clocks that may go back -/

theorem tick_finishes (invariant : Machine.Invariant I) (steady : h.Steady I) (positive : 0 < cycle)
    (paced : s.Paced I cycle frame l) {t : Int} (reads : s.Reads h I t)
    (patience : Nat) :
    Stopped I (s.tick h patience) ∨
      ∃ after l, s.tick h patience = (.finished, after) ∧ after.Paced I cycle frame l := by
  by_cases backlog : 0 ≤ l.backlog cycle frame t
  · rcases tick_of_paced invariant steady positive paced reads backlog patience with
      stopped | ⟨after, finished, counted⟩
    · exact .inl stopped
    · exact .inr ⟨after, _, finished, counted⟩
  · rw [tick_of_reading paced reads.shows]
    obtain ⟨grown, accrued, owing⟩ := accrue_of_paced (paced.undisturbed reads.undisturbed) t
    have short : ¬ grown.settings.cyclePeriod ≤ grown.pace.owed := by
      rw [cyclePeriod_le_owed owing]
      simp only [Ledger.accrue]
      omega
    obtain ⟨after, finished, counted⟩ :=
      tickAt_of_burst invariant steady accrued (burst_of_idle short _) owing
    exact .inr ⟨after, _, finished, counted⟩

end Session

end ChipEight
