import ChipEight.Proofs.Drift
import ChipEight.Proofs.Protocol
import Mathlib.Algebra.Ring.Int.Defs
import Mathlib.Data.List.Induction

/-!
A started session goes from one tick to the next, with pauses between them. The ledger says what
each tick did, and the host under watch says with which calls.
-/

namespace ChipEight

/-! ### Totals -/

section Totals

variable {ι M : Type} [AddMonoid M] (f : ι → M)

theorem total_concat (items : List ι) (item : ι) :
    ((items ++ [item]).map f).sum = (items.map f).sum + f item := by
  rw [List.map_append, List.sum_append, List.map_singleton, List.sum_singleton]

theorem total_divided (pieces : List (List ι)) (rest : List ι) :
    ((pieces.flatten ++ rest).map f).sum =
      (pieces.map fun piece => (piece.map f).sum).sum + (rest.map f).sum := by
  rw [List.map_append, List.sum_append, List.map_flatten, List.sum_flatten, List.map_map]
  rfl

end Totals

/-! ### Ticks -/

variable {σ : Type}

def pictures (calls : List Entry) : Nat :=
  calls.countP (·.call = .render)

namespace Session

structure Tick (σ : Type) where
  found : Session σ
  gap : Int
  left : Session σ

/-- The calls of the tick when the host is watched, which changes nothing else. -/
def Tick.calls (tick : Tick σ) (h : Host σ) (patience : Nat) : List Entry :=
  (tick.found.watched.tick h.watched patience).2.outside.2

/-- What becomes of a session by one tick after another, none of which the machine stops. The last
reading of the clock was `t₀` at first, and the clock does not go back. -/
inductive Course (h : Host σ) (I : Machine → σ → Prop) (patience : Nat) (first : Session σ)
    (t₀ : Int) : List (Tick σ) → Session σ → Int → Prop
  | start : Course h I patience first t₀ [] first t₀
  | tick {ticks : List (Tick σ)} {s : Session σ} {t : Int} {tick : Tick σ} {ending : TickEnd}
      (before : Course h I patience first t₀ ticks s t) (idle : Undisturbed I s tick.found)
      (forward : 0 ≤ tick.gap) (reads : tick.found.Reads h I (t + tick.gap))
      (ticked : tick.found.tick h patience = (ending, tick.left))
      (running : ∀ fault, ending ≠ .fault fault) :
      Course h I patience first t₀ (ticks ++ [tick]) tick.left (t + tick.gap)

/-- The tick finds a ledger and does with it what a tick does at its reading of the clock. -/
structure Tick.Reckoned (tick : Tick σ) (h : Host σ) (I : Machine → σ → Prop) (patience : Nat)
    (cycle frame : Int) (l : Ledger) : Prop where
  owed : 0 ≤ l.owed ∧ l.owed < cycle
  forward : 0 ≤ tick.gap
  found : tick.found.Paced I cycle frame l
  reads : tick.found.Reads h I (l.lastTick + tick.gap)
  finished : tick.found.tick h patience = (.finished, tick.left)
  left : tick.left.Paced I cycle frame (l.tick cycle frame (l.lastTick + tick.gap))

variable {h : Host σ} {I : Machine → σ → Prop} {patience : Nat} {cycle frame t₀ : Int}
  {first : Session σ}

theorem Tick.Reckoned.backlog_nonneg {tick : Tick σ} {l : Ledger}
    (reckoned : tick.Reckoned h I patience cycle frame l) :
    0 ≤ l.backlog cycle frame (l.lastTick + tick.gap) := by
  have owed := reckoned.owed
  have forward := reckoned.forward
  exact Ledger.backlog_nonneg (by omega) owed.1 (by omega)

/-- Every tick does with the ledger what a tick does, and so what each of them keeps of the ledger
and the list holds of the whole course. -/
theorem Course.reckon {P : List (Tick σ) → Ledger → Prop} {ticks : List (Tick σ)} {s : Session σ}
    {t : Int} {l : Ledger} (course : Course h I patience first t₀ ticks s t)
    (invariant : Machine.Invariant I) (steady : h.Steady I) (positive : 0 < cycle)
    (paced : first.Paced I cycle frame l) (fresh : l.owed = 0)
    (begun : l.lastTick = t₀) (begins : P [] l)
    (keeps : ∀ {ticks tick l}, P ticks l → tick.Reckoned h I patience cycle frame l →
      P (ticks ++ [tick]) (l.tick cycle frame (l.lastTick + tick.gap))) :
    (∃ l, s.Paced I cycle frame l ∧ (0 ≤ l.owed ∧ l.owed < cycle) ∧
      l.lastTick = t ∧ P ticks l) ∧
    ∀ tick ∈ ticks, ∃ l, tick.Reckoned h I patience cycle frame l := by
  induction course with
  | start => exact ⟨⟨l, paced, by omega, begun, begins⟩, by simp⟩
  | @tick ticks s t tick ending before idle forward reads ticked running ih =>
    obtain ⟨⟨l, paced, owed, rfl, holds⟩, earlier⟩ := ih
    have found := paced.undisturbed idle
    have backlog : 0 ≤ l.backlog cycle frame (l.lastTick + tick.gap) :=
      Ledger.backlog_nonneg positive owed.1 (by omega)
    have reckoned : tick.Reckoned h I patience cycle frame l := by
      rcases tick_of_paced invariant steady positive found reads backlog patience
        with ⟨fault, _, _, _, stopped, _⟩ | ⟨after, finished, counted⟩
      · rw [ticked] at stopped
        exact absurd stopped (running fault)
      · have same := ticked.symm.trans finished
        cases same
        exact ⟨owed, forward, found, reads, finished, counted⟩
    refine ⟨⟨_, reckoned.left, Ledger.tick_owed_bounds positive _ _, Ledger.tick_lastTick _ _,
      keeps holds reckoned⟩, fun other member => ?_⟩
    rcases List.mem_append.mp member with early | last
    · exact earlier other early
    · rw [List.mem_singleton.mp last]
      exact ⟨l, reckoned⟩

/-! ### Calls -/

section Calls

variable {s t : Session (σ × List Entry)} {l : Ledger}

theorem watched_logs (h : Host σ) (call : Call) (s : Session (σ × List Entry)) :
    ∃ entry, entry.call = call ∧ entry.found = s.machine ∧
      entry.left = (h.watched.react call s).machine ∧
      (h.watched.react call s).outside.2 = s.outside.2 ++ [entry] :=
  ⟨_, rfl, rfl, rfl, rfl⟩

theorem burst_calls (invariant : Machine.Invariant I) (steady : h.Steady I) {fuel : Nat}
    (unbroken : s.failure = none) (holds : Watching I s.machine s.outside)
    (ended : burst h.watched fuel s = (.finished, t)) :
    ∃ polls, t.outside.2 = s.outside.2 ++ polls ∧ Polling s.machine polls t.machine ∧
      t.machine.cycles = s.machine.cycles + polls.length := by
  induction fuel generalizing s with
  | zero =>
    unfold burst at ended
    split at ended
    · cases ended
    · cases ended
      exact ⟨[], (List.append_nil _).symm, .done _, rfl⟩
  | succ fuel ih =>
    unfold burst at ended
    split at ended
    · rcases spend_outcome_of_range (invariant.range holds) with
        ⟨failure, spent⟩ | ⟨answer, u, spent, stepped, outside, same, _, leads⟩
      · rw [spent] at ended
        cases ended
      · rw [spent] at ended
        cases answer with
        | some fault => cases ended
        | none =>
          have kept : Watching I u.machine u.outside := by
            rw [outside]
            exact invariant.step holds stepped
          have going := same.trans unbroken
          have quiet := steady.watched .poll u.countCycle going kept
          obtain ⟨_, _, counted⟩ := Machine.step_counts stepped
          have unlogged := leads.log
          rw [List.append_nil] at unlogged
          cases broken : (h.watched.react .poll u.countCycle).failure with
          | some failure =>
            simp only [broken] at ended
            cases ended
          | none =>
            simp only [broken] at ended
            obtain ⟨polls, log, polling, total⟩ := ih broken (quiet.holds kept) ended
            have executed : (h.watched.react .poll u.countCycle).machine.cycles =
                s.machine.cycles + 1 := quiet.executed.trans counted
            obtain ⟨entry, call, found, left, logged⟩ := watched_logs h .poll u.countCycle
            have same : u.countCycle.outside.2 = s.outside.2 := unlogged
            refine ⟨entry :: polls, ?_, .poll (found ▸ stepped) call (left ▸ polling), ?_⟩
            · rw [log, logged, same, List.append_assoc, List.singleton_append]
            · rw [total, executed, List.length_cons]
              omega
    · cases ended
      exact ⟨[], (List.append_nil _).symm, .done _, rfl⟩

theorem frame_calls (invariant : Machine.Invariant I) (steady : h.Steady I)
    (unbroken : s.failure = none) (holds : Watching I s.machine s.outside) :
    ∃ calls, (Session.frame h.watched s).outside.2 = s.outside.2 ++ calls ∧
      Framing h.hasBuzzer s.machine calls (Session.frame h.watched s).machine ∧
      pictures calls = 1 := by
  rw [frame_of_unbroken invariant.watching steady.watched unbroken holds]
  unfold sounded
  split
  · rename_i loud
    exact ⟨[_, _], List.append_assoc _ _ _, .sounding loud rfl rfl rfl rfl, rfl⟩
  · rename_i quiet
    exact ⟨[_], rfl, .silent quiet rfl rfl, rfl⟩

theorem frameIfDue_calls (invariant : Machine.Invariant I) (steady : h.Steady I)
    (paced : s.Paced (Watching I) cycle frame l) (now : Int) :
    ∃ calls, (s.frameIfDue h.watched (.whole now)).outside.2 = s.outside.2 ++ calls ∧
      Framing h.hasBuzzer s.machine calls (s.frameIfDue h.watched (.whole now)).machine ∧
      pictures calls = if frame ≤ now - l.lastFrame then 1 else 0 := by
  rw [frameIfDue_whole paced]
  by_cases due : frame ≤ now - l.lastFrame
  · rw [if_pos due, if_pos due]
    exact frame_calls invariant steady (setLastFrame_of_paced paced _).unbroken paced.holds
  · rw [if_neg due, if_neg due]
    exact ⟨[], (List.append_nil _).symm, .skipped, rfl⟩

theorem tickAt_calls (invariant : Machine.Invariant I) (steady : h.Steady I) (positive : 0 < cycle)
    (paced : s.Paced (Watching I) cycle frame l) {now : Int}
    (backlog : 0 ≤ l.backlog cycle frame now)
    (finished : s.tickAt h.watched patience (.whole now) = (.finished, t)) :
    ∃ polls worked frames, t.outside.2 = s.outside.2 ++ (polls ++ frames) ∧
      Polling s.machine polls worked ∧ Framing h.hasBuzzer worked frames t.machine ∧
      t.machine.cycles = s.machine.cycles + polls.length ∧
      pictures frames = if frame ≤ now - l.lastFrame then 1 else 0 := by
  have accrued := accrue_whole paced.cyclePeriod paced.framePeriod paced.owed paced.marks rfl now
  generalize grows : ({ s with pace := _ } : Session (σ × List Entry)) = grown at accrued
  have owing : grown.Paced (Watching I) cycle frame (l.accrue cycle frame now) := by
    rw [← grows]
    exact { paced with owed := rfl, marks := rfl }
  have enough : (l.accrue cycle frame now).owed ≤
      (grown.pace.owed.truncate.toNat + patience : Nat) := by
    rw [owing.owed, Number.truncate]
    omega
  rcases burst_of_paced invariant.watching steady.watched positive owing backlog enough with
    stopped | ⟨worked, ended, spent⟩
  · obtain ⟨fault, _, _, _, stops, _⟩ := tickAt_of_stopped accrued stopped
    rw [finished] at stops
    cases stops
  · obtain ⟨polls, log, polling, counted⟩ :=
      burst_calls invariant steady owing.unbroken owing.holds ended
    obtain ⟨frames, shown, framing, pictures⟩ := frameIfDue_calls invariant steady spent now
    have framed := frameIfDue_of_paced invariant.watching steady.watched spent now
    obtain ⟨next, broken, _, _, publishes⟩ :=
      publish_outcome (worked.frameIfDue h.watched (.whole now)).pace (.whole now)
    have closes := publishes _ rfl
    have published := publish_of_paced framed now
    have executed := published.executed
    rw [Ledger.publish_executed, Ledger.frameIfDue_executed, ← spent.executed] at executed
    simp only [tickAt, accrued, ended, andThen_of_paced framed, concluded,
      published.unbroken] at finished
    cases finished
    rw [congrArg Session.machine closes] at executed ⊢
    rw [congrArg Session.outside closes]
    subst grows
    refine ⟨polls, worked.machine, frames, ?_, polling, framing, executed.trans counted, pictures⟩
    exact shown.trans (by rw [log, List.append_assoc])

end Calls

theorem Paced.watched {s : Session σ} {l : Ledger} (paced : s.Paced I cycle frame l) :
    s.watched.Paced (Watching I) cycle frame l :=
  ⟨paced.cyclePeriod, paced.framePeriod, paced.owed, paced.marks, paced.cycles, paced.frames,
    paced.executed, paced.unbroken, paced.holds⟩

theorem Tick.Reckoned.calls {tick : Tick σ} {l : Ledger}
    (reckoned : tick.Reckoned h I patience cycle frame l) (invariant : Machine.Invariant I)
    (steady : h.Steady I) :
    ∃ polls worked frames, tick.calls h patience = polls ++ frames ∧
      Polling tick.found.machine polls worked ∧
      Framing h.hasBuzzer worked frames tick.left.machine ∧
      tick.left.machine.cycles = tick.found.machine.cycles + polls.length ∧
      pictures frames =
        if frame ≤ l.lastTick + tick.gap - l.lastFrame then 1 else 0 := by
  have positive : 0 < cycle := by
    have owed := reckoned.owed
    omega
  have alike : tick.found.tick h patience =
      (tick.found.watched.tick h.watched patience).map id (onto Prod.fst) :=
    h.watched_projects.tick patience tick.found.watched
  rw [reckoned.finished] at alike
  unfold Tick.calls
  have paced := reckoned.found.watched
  have read := tick_of_reading (h := h.watched) paced reckoned.reads.shows patience
  generalize tick.found.watched.tick h.watched patience = result at alike read ⊢
  obtain ⟨ending, after⟩ := result
  obtain ⟨rfl, same⟩ := Prod.mk.inj alike
  have machine : tick.left.machine = after.machine := congrArg Session.machine same
  rw [machine]
  have idle : Undisturbed (Watching I) tick.found.watched
      { tick.found.watched with outside := (h.watched.clock tick.found.watched.outside).2 } :=
    ⟨rfl, rfl, rfl, rfl, reckoned.reads.holds⟩
  exact tickAt_calls invariant steady positive (paced.undisturbed idle) reckoned.backlog_nonneg
    read.symm

/-! ### Courses of a program that runs for ever -/

theorem Course.beat {ticks : List (Tick σ)} {s after : Session σ} {t u : Int}
    (course : Course h I patience first t₀ ticks s t) (forward : t ≤ u)
    (beat : Beat I h patience s u after) :
    ∃ tick : Tick σ, tick.gap = u - t ∧ Course h I patience first t₀ (ticks ++ [tick]) after u := by
  obtain ⟨idle, ending, quiet, reads, ticked, running⟩ := beat
  have whole : t + (u - t) = u := by omega
  have longer : Course h I patience first t₀ (ticks ++ [⟨idle, u - t, after⟩]) after (t + (u - t)) :=
    .tick course quiet (by simp only; omega) (by rw [whole]; exact reads) ticked running
  rw [whole] at longer
  exact ⟨_, rfl, longer⟩

theorem looping_course {first : Session Int} {l : Ledger} (positive : 0 < cycle)
    (paced : first.Paced (Timeless Machine.Looping) cycle frame l) (owed : 0 ≤ l.owed)
    (gaps : List Int)
    (forward : ∀ gap ∈ gaps, 0 ≤ gap) :
    ∃ ticks s, ticks.map Tick.gap = gaps ∧
      Course quietHost (Timeless Machine.InRange) 0 first l.lastTick ticks s (l.lastTick + gaps.sum) ∧
      ∃ later, s.Paced (Timeless Machine.Looping) cycle frame later ∧ 0 ≤ later.owed ∧
        later.lastTick = l.lastTick + gaps.sum := by
  induction gaps using List.reverseRecOn with
  | nil =>
    rw [List.sum_nil, Int.add_zero]
    exact ⟨[], first, rfl, .start, l, paced, owed, rfl⟩
  | append_singleton gaps gap ih =>
    rw [List.forall_mem_append, List.forall_mem_singleton] at forward
    obtain ⟨ticks, s, same, course, k, paced, owed, last⟩ := ih forward.1
    have ahead := forward.2
    have backlog : 0 ≤ k.backlog cycle frame (k.lastTick + gap) :=
      Ledger.backlog_nonneg positive owed (by omega)
    obtain ⟨after, beat, counted⟩ := looping_beat positive paced backlog
    rw [← last] at course
    obtain ⟨tick, apart, longer⟩ := course.beat (by omega) beat
    rw [List.sum_append, List.sum_singleton, ← Int.add_assoc, ← last]
    refine ⟨ticks ++ [tick], after, ?_, longer, _, counted,
      (Ledger.tick_owed_bounds positive _ _).1, Ledger.tick_lastTick _ _⟩
    rw [List.map_append, List.map_singleton, same, apart, add_sub_cancel_left]

theorem looping_course_atRates {m : Machine} (looping : m.Looping) {cyclesPerSecond frameRate : Nat}
    (cycles : 0 < cyclesPerSecond) (frames : 0 < frameRate)
    (slow : 1 ≤ nanoseconds / cyclesPerSecond) (gaps : List Int) (forward : ∀ gap ∈ gaps, 0 ≤ gap) :
    ∃ ticks s, ticks.map Tick.gap = gaps ∧
      Course quietHost (Timeless Machine.InRange) 0
        ((atRates m cyclesPerSecond frameRate cycles frames).start quietHost) 0
        ticks s gaps.sum := by
  have started := start_of_ready (atRates_ready looping cycles frames) (quietHost_reads _ _)
  obtain ⟨ticks, s, same, course, _⟩ :=
    looping_course (Int.natCast_pos.mpr slow) started (Int.le_refl 0) gaps forward
  have zero : (0 : Int) + gaps.sum = gaps.sum := Int.zero_add _
  exact ⟨ticks, s, same, zero ▸ course⟩

end Session

end ChipEight
