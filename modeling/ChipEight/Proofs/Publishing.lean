import ChipEight.Proofs.Cadence
import Mathlib.Algebra.Order.Group.Unbundled.Int

/-!
The ticks fall into intervals of a second or more, and every instruction and every frame is counted
in one of them. Of the instructions not the rate is published but the number.
-/

namespace ChipEight

namespace Ledger

variable {cycle frame : Int}

def worked (l : Ledger) (cycle frame t : Int) : Ledger :=
  ((l.accrue cycle frame t).burst cycle).frameIfDue frame t

theorem tick_eq_publish (l : Ledger) (t : Int) :
    l.tick cycle frame t = (l.worked cycle frame t).publish t :=
  rfl

theorem worked_published (l : Ledger) (t : Int) :
    (l.worked cycle frame t).published = l.published := by
  unfold worked frameIfDue
  split <;> rfl

theorem worked_lastTick (l : Ledger) (t : Int) : (l.worked cycle frame t).lastTick = t := by
  rw [worked, frameIfDue_lastTick]
  rfl

theorem worked_executed (l : Ledger) (t : Int) :
    (l.worked cycle frame t).executed = (l.tick cycle frame t).executed := by
  rw [tick_eq_publish, publish_executed]

theorem executed_le_tick (l : Ledger) (t : Int) :
    l.executed ≤ (l.tick cycle frame t).executed := by
  rw [tick_executed]
  exact Nat.le_add_right _ _

theorem frameIfDue_cycles (l : Ledger) (t : Int) : (l.frameIfDue frame t).cycles = l.cycles := by
  unfold frameIfDue
  split <;> rfl

theorem worked_cycles (l : Ledger) (t : Int) :
    (l.worked cycle frame t).cycles =
      l.cycles + ((l.tick cycle frame t).executed - l.executed) := by
  rw [tick_executed, Nat.add_sub_cancel_left, worked, frameIfDue_cycles]
  rfl

theorem worked_frames (l : Ledger) (t : Int) :
    (l.worked cycle frame t).frames = l.frames + if frame ≤ t - l.lastFrame then 1 else 0 := by
  by_cases due : frame ≤ t - l.lastFrame <;> simp [worked, frameIfDue, burst, accrue, due]

end Ledger

/-- What stays published: both speeds, and when they were published. -/
def Pace.board (p : Pace) : Option Value × Rate × Nat :=
  (p.marks.map Marks.published, p.frameRate, p.cycleRate)

namespace Session

variable {σ : Type} {I : Machine → σ → Prop} {s t : Session σ} {cycle frame : Int} {l : Ledger}
  {h : Host σ} {patience : Nat}

/-! ### What the parts of a tick publish -/

theorem spend_board (s : Session σ) : (Attempt.left (spend s)).pace.board = s.pace.board := by
  have kept (after : Session σ) (same : after.pace.board = s.pace.board) :
      Attempt.Keeps (fun t : Session σ => t.pace.board = s.pace.board) (do
        set after
        .within machine (fun s machine => { s with machine }) Machine.step) :=
    .bind (fun _ _ => same) fun _ => .frame _ fun _ _ same => same
  rw [spend, Attempt.get_bind]
  refine Attempt.Keeps.bind (P := fun t : Session σ => t.pace.board = s.pace.board) (.lift _)
    (fun owed => ?_) s rfl
  exact kept { s with pace := { s.pace with owed }, journal := s.machine.noteStep s.journal } rfl

theorem spend_leaves (spent : spend s = .ok none t) :
    t.outside = s.outside ∧ t.failure = s.failure ∧ s.machine.step = .ok none t.machine := by
  rcases spend_outcome s.pace s.settings with ⟨failure, fails⟩ | ⟨next, _, steps⟩
  · rw [fails s rfl rfl] at spent
    cases spent
  · cases stepped : s.machine.step with
    | error failure machine =>
      cases spent.symm.trans ((steps s rfl rfl).trans (Attempt.within_of_error stepped))
    | ok answer machine =>
      cases spent.symm.trans ((steps s rfl rfl).trans (Attempt.within_of_ok stepped))
      exact ⟨rfl, rfl, rfl⟩

theorem burst_board (invariant : Machine.Invariant I) (steady : h.Steady I) (fuel : Nat)
    (unbroken : s.failure = none) (holds : I s.machine s.outside) :
    (burst h fuel s).2.pace.board = s.pace.board := by
  induction fuel generalizing s with
  | zero => rfl
  | succ fuel ih =>
    have paid := spend_board s
    unfold burst
    split
    · cases spent : spend s with
      | error failure left =>
        rw [spent] at paid
        exact paid
      | ok answer left =>
        rw [spent] at paid
        cases answer with
        | some fault => exact paid
        | none =>
          obtain ⟨outside, going, stepped⟩ := spend_leaves spent
          have kept : I left.machine left.outside := by
            rw [outside]
            exact invariant.step holds stepped
          have quiet := steady .poll left.countCycle (going.trans unbroken) kept
          have polled : (h.react .poll left.countCycle).pace.board = s.pace.board := by
            rw [quiet.pace]
            exact paid
          cases broken : (h.react .poll left.countCycle).failure with
          | some failure =>
            simp only [broken]
            exact polled
          | none =>
            simp only [broken]
            exact (ih broken (quiet.holds kept)).trans polled
    · rfl

theorem frame_board (invariant : Machine.Invariant I) (steady : h.Steady I)
    (unbroken : s.failure = none) (holds : I s.machine s.outside) :
    (Session.frame h s).pace.board = s.pace.board := by
  have heard := sounded_undisturbed invariant steady unbroken holds
  have shown := steady .render (s.sounded h) (heard.failure.trans unbroken) (heard.holds holds)
  rw [frame_of_unbroken invariant steady unbroken holds, ← heard.pace, ← shown.pace]
  rfl

theorem frameIfDue_board (invariant : Machine.Invariant I) (steady : h.Steady I)
    (paced : s.Paced I cycle frame l) (now : Int) :
    (s.frameIfDue h (.whole now)).pace.board = s.pace.board := by
  rw [frameIfDue_whole paced]
  split
  · rw [frame_board invariant steady (setLastFrame_of_paced paced _).unbroken paced.holds,
      Pace.board, Pace.board, paced.marks]
    rfl
  · rfl

theorem publish_board (paced : s.Paced I cycle frame l) (now : Int) :
    (s.publish (.whole now)).pace.board =
      if nanoseconds ≤ now - l.published then
        (some (.whole now), ⟨l.frames, .whole (now - l.published)⟩, l.cycles)
      else s.pace.board := by
  simp only [publish, paced.marks, Value.minus_whole, Number.whole_le_whole, paced.cycles,
    paced.frames]
  split <;> rfl

theorem tickAt_board (invariant : Machine.Invariant I) (steady : h.Steady I) (positive : 0 < cycle)
    (paced : s.Paced I cycle frame l) {now : Int} (backlog : 0 ≤ l.backlog cycle frame now)
    (finished : s.tickAt h patience (.whole now) = (.finished, t)) :
    t.pace.board =
      if nanoseconds ≤ now - l.published then
        (some (.whole now),
          ⟨(l.worked cycle frame now).frames, .whole (now - l.published)⟩,
          (l.worked cycle frame now).cycles)
      else s.pace.board := by
  have accrued := accrue_whole paced.cyclePeriod paced.framePeriod paced.owed paced.marks rfl now
  generalize grows : ({ s with pace := _ } : Session σ) = grown at accrued
  have owing : grown.Paced I cycle frame (l.accrue cycle frame now) := by
    rw [← grows]
    exact { paced with owed := rfl, marks := rfl }
  have kept : grown.pace.board = s.pace.board := by
    rw [← grows, Pace.board, Pace.board, paced.marks]
    rfl
  have enough : (l.accrue cycle frame now).owed ≤
      (grown.pace.owed.truncate.toNat + patience : Nat) := by
    rw [owing.owed, Number.truncate]
    omega
  rcases burst_of_paced invariant steady positive owing backlog enough with
    stopped | ⟨worked, ended, spent⟩
  -- a tick that a fault ends is not finished
  · obtain ⟨fault, _, _, _, stops, _⟩ := tickAt_of_stopped accrued stopped
    rw [finished] at stops
    cases stops
  · have framed : (worked.frameIfDue h (.whole now)).Paced I cycle frame
        (l.worked cycle frame now) := frameIfDue_of_paced invariant steady spent now
    have before : (worked.frameIfDue h (.whole now)).pace.board = s.pace.board := by
      rw [frameIfDue_board invariant steady spent, ← kept]
      exact (congrArg (·.2.pace.board) ended).symm.trans
        (burst_board invariant steady _ owing.unbroken owing.holds)
    simp only [tickAt, accrued, ended, andThen_of_paced framed, concluded,
      (publish_of_paced framed now).unbroken] at finished
    cases finished
    rw [publish_board framed, Ledger.worked_published, before]

/-! ### Refreshes -/

def Tick.Refreshes (tick : Tick σ) : Prop :=
  tick.left.pace.board ≠ tick.found.pace.board

def Tick.executed (tick : Tick σ) : Nat :=
  tick.left.machine.cycles - tick.found.machine.cycles

def executed (ticks : List (Tick σ)) : Nat :=
  (ticks.map Tick.executed).sum

def elapsed (ticks : List (Tick σ)) : Int :=
  (ticks.map Tick.gap).sum

variable {tick : Tick σ} {ticks rest : List (Tick σ)} {intervals : List (List (Tick σ))}

theorem executed_concat (ticks : List (Tick σ)) (tick : Tick σ) :
    executed (ticks ++ [tick]) = executed ticks + tick.executed :=
  total_concat _ ticks tick

theorem elapsed_concat (ticks : List (Tick σ)) (tick : Tick σ) :
    elapsed (ticks ++ [tick]) = elapsed ticks + tick.gap :=
  total_concat _ ticks tick

namespace Tick.Reckoned

theorem board (reckoned : tick.Reckoned h I patience cycle frame l)
    (invariant : Machine.Invariant I) (steady : h.Steady I) :
    tick.left.pace.board =
      if nanoseconds ≤ l.lastTick + tick.gap - l.published then
        (some (.whole (l.lastTick + tick.gap)),
          ⟨(l.worked cycle frame (l.lastTick + tick.gap)).frames,
            .whole (l.lastTick + tick.gap - l.published)⟩,
          (l.worked cycle frame (l.lastTick + tick.gap)).cycles)
      else tick.found.pace.board := by
  have owed := reckoned.owed
  have finished := reckoned.finished
  rw [tick_of_reading reckoned.found reckoned.reads.shows] at finished
  have read := reckoned.found.undisturbed reckoned.reads.undisturbed
  exact tickAt_board invariant steady (by omega) read reckoned.backlog_nonneg finished

theorem executed_eq (reckoned : tick.Reckoned h I patience cycle frame l) :
    tick.executed =
      (l.tick cycle frame (l.lastTick + tick.gap)).executed - l.executed := by
  rw [Tick.executed, reckoned.left.executed, reckoned.found.executed]

end Tick.Reckoned

/-- An interval: the ticks from behind a refresh to the next one, which comes with the first tick
that finds a second over. It publishes the frames with the length of the interval, and of the
instructions only how many there were. -/
structure IsInterval (h : Host σ) (patience : Nat) (interval early : List (Tick σ))
    (last : Tick σ) : Prop where
  ticks : interval = early ++ [last]
  quiet : ∀ tick ∈ early, ¬ tick.Refreshes
  refreshes : last.Refreshes
  short : elapsed early < nanoseconds
  long : nanoseconds ≤ elapsed interval
  frameRate : last.left.pace.frameRate = ⟨shown h patience interval, .whole (elapsed interval)⟩
  cycleRate : last.left.pace.cycleRate = executed interval

/-- The intervals of some ticks, and the ticks since the last refresh, which are what the session
still counts. -/
structure Divided (h : Host σ) (patience : Nat) (n : Nat) (ticks : List (Tick σ))
    (intervals : List (List (Tick σ))) (rest : List (Tick σ)) (l : Ledger) : Prop where
  whole : intervals.flatten ++ rest = ticks
  closed : ∀ interval ∈ intervals, ∃ early last, IsInterval h patience interval early last
  quiet : ∀ tick ∈ rest, ¬ tick.Refreshes
  short : elapsed rest < nanoseconds
  since : l.lastTick - l.published = elapsed rest
  cycles : l.cycles = executed rest
  frames : l.frames = shown h patience rest
  executed : l.executed = n + Session.executed ticks

namespace Divided

variable {n : Nat}

theorem add (divided : Divided h patience n ticks intervals rest l)
    (invariant : Machine.Invariant I) (steady : h.Steady I)
    (reckoned : tick.Reckoned h I patience cycle frame l) :
    ∃ intervals rest, Divided h patience n (ticks ++ [tick]) intervals rest
      (l.tick cycle frame (l.lastTick + tick.gap)) := by
  have board := reckoned.board invariant steady
  -- what is posted is the time of the last refresh, so posting a later one makes a difference
  have posted : tick.found.pace.board.1 = some (.whole l.published) := by
    rw [Pace.board, reckoned.found.marks]
    rfl
  have since : l.lastTick + tick.gap - l.published = elapsed (rest ++ [tick]) := by
    rw [elapsed_concat, ← divided.since]
    omega
  have cycles : (l.worked cycle frame (l.lastTick + tick.gap)).cycles =
      Session.executed (rest ++ [tick]) := by
    rw [Ledger.worked_cycles, divided.cycles, executed_concat, reckoned.executed_eq]
  have frames : (l.worked cycle frame (l.lastTick + tick.gap)).frames =
      shown h patience (rest ++ [tick]) := by
    rw [Ledger.worked_frames, divided.frames, shown_concat, reckoned.pictures_eq invariant steady]
  have executed : (l.worked cycle frame (l.lastTick + tick.gap)).executed =
      n + Session.executed (ticks ++ [tick]) := by
    have grows : l.executed ≤ (l.tick cycle frame (l.lastTick + tick.gap)).executed :=
      l.executed_le_tick _
    rw [executed_concat, reckoned.executed_eq, ← Nat.add_assoc, ← divided.executed,
      Ledger.worked_executed, Nat.add_sub_of_le grows]
  have published : (l.worked cycle frame (l.lastTick + tick.gap)).published = l.published :=
    l.worked_published _
  have lastTick : (l.worked cycle frame (l.lastTick + tick.gap)).lastTick = l.lastTick + tick.gap :=
    l.worked_lastTick _
  rw [Ledger.tick_eq_publish]
  rw [since, cycles, frames] at board
  -- from here on only the counts of the ledger matter, not how it came to them
  generalize l.worked cycle frame (l.lastTick + tick.gap) = w at *
  by_cases second : nanoseconds ≤ elapsed (rest ++ [tick])
  · rw [if_pos second] at board
    have closed : IsInterval h patience (rest ++ [tick]) rest tick :=
      { ticks := rfl
        quiet := divided.quiet
        refreshes := by
          intro same
          rw [← same, board] at posted
          simp only [Option.some.injEq, Value.number.injEq, Number.whole.injEq] at posted
          have positive : (0 : Int) < nanoseconds := by decide
          omega
        short := divided.short
        long := second
        frameRate := congrArg (·.2.1) board
        cycleRate := congrArg (·.2.2) board }
    refine ⟨intervals ++ [rest ++ [tick]], [], ?_⟩
    rw [Ledger.publish, published, since, if_pos second]
    exact
      { whole := by simp [← divided.whole]
        closed := by
          rw [List.forall_mem_append, List.forall_mem_singleton]
          exact ⟨divided.closed, rest, tick, closed⟩
        quiet := by simp
        short := by simp [elapsed]
        since := by simp [elapsed, lastTick]
        cycles := rfl
        frames := rfl
        executed := executed }
  · rw [if_neg second] at board
    refine ⟨intervals, rest ++ [tick], ?_⟩
    rw [Ledger.publish, published, since, if_neg second]
    exact
      { whole := by rw [← List.append_assoc, divided.whole]
        closed := divided.closed
        quiet := by
          rw [List.forall_mem_append, List.forall_mem_singleton]
          exact ⟨divided.quiet, fun refreshes => refreshes board⟩
        short := by omega
        since := by rw [lastTick, published, since]
        cycles := cycles
        frames := frames
        executed := executed }

end Divided

theorem mem_intervals_of_long (whole : intervals.flatten ++ rest = [tick])
    (closed : ∀ interval ∈ intervals, ∃ early last, IsInterval h patience interval early last)
    (short : elapsed rest < nanoseconds) (long : nanoseconds ≤ tick.gap) :
    [tick] ∈ intervals := by
  cases intervals with
  | nil =>
    obtain rfl : rest = [tick] := whole
    rw [elapsed, List.map_singleton, List.sum_singleton] at short
    omega
  | cons first more =>
    obtain ⟨early, last, interval⟩ := closed first List.mem_cons_self
    rw [List.flatten_cons, interval.ticks] at whole
    cases early with
    | nil =>
      obtain rfl : last = tick := (List.cons.inj whole).1
      rw [interval.ticks]
      exact List.mem_cons_self
    | cons other early => simp at whole

theorem executed_divided (intervals : List (List (Tick σ))) (rest : List (Tick σ)) :
    executed (intervals.flatten ++ rest) = (intervals.map executed).sum + executed rest :=
  total_divided _ intervals rest

theorem shown_divided (intervals : List (List (Tick σ))) (rest : List (Tick σ)) :
    shown h patience (intervals.flatten ++ rest) =
      (intervals.map (shown h patience)).sum + shown h patience rest :=
  total_divided _ intervals rest

theorem count_is_rate_iff {c : Nat} {e : Int} (long : nanoseconds ≤ e) :
    |(c * e - c * nanoseconds : Int)| ≤ e ↔ c * (e - nanoseconds) ≤ e := by
  have more : 0 ≤ (c : Int) * (e - nanoseconds) :=
    Int.mul_nonneg (Int.natCast_nonneg c) (by omega)
  rw [← Int.mul_sub, abs_of_nonneg more]

theorem Course.ledger {first : Session σ} {t₀ t : Int}
    (course : Course h I patience first t₀ ticks s t)
    (invariant : Machine.Invariant I) (steady : h.Steady I) (positive : 0 < cycle)
    (paced : first.Paced I cycle frame l) (fresh : l.owed = 0) (begun : l.lastTick = t₀) :
    s.Paced I cycle frame
      ((ticks.map Tick.gap).foldl (fun l gap => l.tick cycle frame (l.lastTick + gap)) l) := by
  obtain ⟨⟨k, counted, _, _, rfl⟩, _⟩ :=
    course.reckon (P := fun ticks k => k =
      (ticks.map Tick.gap).foldl (fun l gap => l.tick cycle frame (l.lastTick + gap)) l) invariant
      steady positive paced fresh begun rfl fun {ticks tick k} same _ => by
        rw [List.map_append, List.foldl_append, ← same]
        rfl
  exact counted

/-- All ticks lie in intervals that a refresh ends, or behind the last refresh, and so every
instruction and every frame is counted once. The refresh comes with the first tick at which a second
is over, and the frame rate that it publishes is the number of frames with the length of the
interval. But for the instructions it publishes the mere number, and that is their rate to within
one exactly if the time beyond a second is worth no more than one. -/
theorem publishes_rate_iff {idle s : Session σ} {cyclesPerSecond frameRate : Nat} {t₀ t : Int}
    {ticks : List (Tick σ)} (invariant : Machine.Invariant I) (steady : h.Steady I)
    (ready : idle.Ready I cyclesPerSecond frameRate) (slow : 1 ≤ nanoseconds / cyclesPerSecond)
    (reads : idle.Reads h I t₀)
    (course : Course h I patience (idle.start h) t₀ ticks s t) :
    ∃ (intervals : List (List (Tick σ))) (rest : List (Tick σ)), intervals.flatten ++ rest = ticks ∧
      (∀ interval ∈ intervals, ∃ early last, IsInterval h patience interval early last ∧
        let e := elapsed interval
        let c := executed interval
        let cps := last.left.pace.cycleRate
        (|(cps * e - c * nanoseconds : Int)| ≤ e ↔ c * (e - nanoseconds) ≤ e)) ∧
      (∀ tick ∈ rest, ¬ tick.Refreshes) ∧ elapsed rest < nanoseconds ∧
      s.pace.cycles = executed rest ∧ s.pace.frames = shown h patience rest ∧
      s.machine.cycles =
        idle.machine.cycles + ((intervals.map executed).sum + executed rest) ∧
      shown h patience ticks =
        (intervals.map (shown h patience)).sum + shown h patience rest := by
  have begun := start_of_ready ready reads
  have fresh : Divided h patience idle.machine.cycles [] [] []
      ⟨0, t₀, t₀, t₀, idle.machine.cycles, 0, 0⟩ :=
    ⟨rfl, by simp, by simp, by simp [elapsed], by simp [elapsed], rfl, rfl, rfl⟩
  obtain ⟨⟨l, paced, _, _, intervals, rest, divided⟩, _⟩ :=
    course.reckon (P := fun ticks l => ∃ intervals rest,
      Divided h patience idle.machine.cycles ticks intervals rest l) invariant steady
      (Int.natCast_pos.mpr slow) begun rfl rfl ⟨[], [], fresh⟩
      fun ⟨_, _, divided⟩ reckoned => divided.add invariant steady reckoned
  refine ⟨intervals, rest, divided.whole, fun interval member => ?_, divided.quiet, divided.short,
    paced.cycles.trans divided.cycles, paced.frames.trans divided.frames, ?_, ?_⟩
  · obtain ⟨early, last, closed⟩ := divided.closed interval member
    refine ⟨early, last, closed, ?_⟩
    simp only [closed.cycleRate]
    exact count_is_rate_iff closed.long
  · rw [paced.executed, divided.executed, ← divided.whole, executed_divided]
  · rw [← divided.whole, shown_divided]

/-- A program that runs for ever is held up and catches up by 46 instructions. That is their number
per second if a second is over, and not if it is a second and a half. -/
theorem publishes_rate_iff_after_one_second_not_later :
    let idle := atRates (Machine.withProgram {} (.cycle 0 []) [0x12, 0x00]) 700 60
      (by decide) (by decide)
    (∃ tick s, Course quietHost (Timeless Machine.InRange) 0 (idle.start quietHost) 0 [tick] s
        1000000000 ∧
      tick.executed = 46 ∧
      |(tick.left.pace.cycleRate * 1000000000 - 46 * nanoseconds : Int)| ≤ 1000000000) ∧
    ∃ tick s, Course quietHost (Timeless Machine.InRange) 0 (idle.start quietHost) 0 [tick] s
        1500000000 ∧
      tick.executed = 46 ∧
      ¬ |(tick.left.pace.cycleRate * 1500000000 - 46 * nanoseconds : Int)| ≤ 1500000000 := by
  intro idle
  have looping := Machine.withProgram_looping {} (.cycle 0 [])
  have ready : idle.Ready (Timeless Machine.InRange) 700 60 := atRates_ready looping.range _ _
  have outcome (e : Int) (second : nanoseconds ≤ e)
      (counted : ∀ n, (Ledger.tick (nanoseconds / 700 : Nat) (nanoseconds / 60 : Nat)
        ⟨0, 0, 0, 0, n, 0, 0⟩ (0 + e)).executed = n + 46) :
      ∃ tick s, Course quietHost (Timeless Machine.InRange) 0 (idle.start quietHost) 0 [tick] s e ∧
        tick.executed = 46 ∧
        (|(tick.left.pace.cycleRate * e - 46 * nanoseconds : Int)| ≤ e ↔
          46 * (e - nanoseconds) ≤ e) := by
    obtain ⟨ticks, s, gaps, course⟩ := looping_course_atRates looping (by decide : 0 < 700)
      (by decide : 0 < 60) (by decide) [e] (by simp; omega)
    obtain ⟨tick, rfl, gap⟩ := List.map_eq_singleton_iff.mp gaps
    rw [List.sum_singleton] at course
    obtain ⟨intervals, rest, whole, closed, _, short, _, _, total, _⟩ :=
      publishes_rate_iff Machine.inRange_invariant (quietHost_steady _) ready (by decide)
        (quietHost_reads _ _) course
    have paced := course.ledger Machine.inRange_invariant (quietHost_steady _) (by decide)
      (start_of_ready ready (quietHost_reads _ _)) rfl rfl
    have ran : tick.executed = 46 := by
      rw [← executed_divided, whole, paced.executed, gaps] at total
      have count := Nat.add_left_cancel ((counted idle.machine.cycles).symm.trans total)
      exact (count.trans List.sum_singleton).symm
    have alone : [tick] ∈ intervals := mem_intervals_of_long whole
      (fun interval member => (closed interval member).imp fun _ => .imp fun _ => And.left) short
      (by rwa [gap])
    obtain ⟨early, last, interval, rate⟩ := closed _ alone
    obtain ⟨rfl, rfl⟩ : early = [] ∧ last = tick := by
      simpa [eq_comm] using List.singleton_eq_append_iff.mp interval.ticks
    have length : elapsed [last] = e := (congrArg List.sum gaps).trans List.sum_singleton
    have count : executed [last] = 46 := List.sum_singleton.trans ran
    rw [length, count] at rate
    exact ⟨last, s, course, ran, by exact_mod_cast rate⟩
  obtain ⟨tick, s, course, ran, rate⟩ :=
    outcome 1000000000 (by decide) fun n => Ledger.tick_executed _ _
  obtain ⟨tick', s', course', ran', rate'⟩ :=
    outcome 1500000000 (by decide) fun n => Ledger.tick_executed _ _
  exact ⟨⟨tick, s, course, ran, rate.mpr (by decide)⟩,
    tick', s', course', ran', fun near => absurd (rate'.mp near) (by decide)⟩

end Session

end ChipEight
