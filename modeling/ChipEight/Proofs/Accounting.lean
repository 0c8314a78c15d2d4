import ChipEight.Proofs.Bursts
import ChipEight.Proofs.Course
import Mathlib.Algebra.Order.BigOperators.Group.List

/-!
Every nanosecond between the start of a session and its last tick went into an instruction, is still
owed, or was dropped by a tick that found more than the longest backlog.
-/

namespace ChipEight

namespace Ledger

variable {cycle frame : Int} {l : Ledger} {gap : Int}

theorem backlog_add_dropped (l : Ledger) (cycle frame gap : Int) :
    l.backlog cycle frame (l.lastTick + gap) + max 0 (l.owed + gap - max (4 * frame) cycle) =
      l.owed + gap := by
  unfold backlog
  omega

theorem tick_executed_le (positive : 0 < cycle) (t : Int) :
    ((l.tick cycle frame t).executed : Int) ≤ l.executed + max 1 (4 * frame / cycle) := by
  have longest : l.backlog cycle frame t ≤ max (4 * frame) cycle := min_le_right _ _
  have most : max (4 * frame) cycle / cycle ≤ max 1 (4 * frame / cycle) := by
    rcases le_total (4 * frame) cycle with short | long
    · rw [max_eq_right short, Int.ediv_self (by omega)]
      exact le_max_left _ _
    · rw [max_eq_left long]
      exact le_max_right _ _
  have count := (Int.ediv_le_ediv positive longest).trans most
  rw [tick_executed]
  omega

end Ledger

namespace Session

variable {σ : Type} {h : Host σ} {I : Machine → σ → Prop} {patience : Nat}

def Tick.dropped (tick : Tick σ) : Int :=
  max 0 (tick.found.pace.owed.truncate + tick.gap - tick.found.settings.maxCatchUp.truncate)

theorem Tick.Reckoned.dropped_eq {tick : Tick σ} {cycle frame : Int} {l : Ledger}
    (reckoned : tick.Reckoned h I patience cycle frame l) :
    tick.dropped = max 0 (l.owed + tick.gap - max (4 * frame) cycle) := by
  have found := reckoned.found
  rw [Tick.dropped, found.owed, maxCatchUp_whole found.cyclePeriod found.framePeriod]
  rfl

theorem dropped_nonneg (ticks : List (Tick σ)) : 0 ≤ (ticks.map Tick.dropped).sum := by
  refine List.sum_nonneg fun time member => ?_
  obtain ⟨tick, _, rfl⟩ := List.mem_map.mp member
  exact le_max_left _ _

/-- All time from `t₀` to the last tick went into the instructions after the first `n`, is owed, or
was dropped. -/
def Settled (cycle t₀ : Int) (n : Nat) (ticks : List (Tick σ)) (l : Ledger) : Prop :=
  cycle * (l.executed - n : Int) + l.owed + (ticks.map Tick.dropped).sum = l.lastTick - t₀

theorem Settled.tick {tick : Tick σ} {ticks : List (Tick σ)} {cycle frame t₀ : Int} {n : Nat}
    {l : Ledger} (settled : Settled cycle t₀ n ticks l)
    (reckoned : tick.Reckoned h I patience cycle frame l) :
    Settled cycle t₀ n (ticks ++ [tick]) (l.tick cycle frame (l.lastTick + tick.gap)) := by
  have owed := reckoned.owed
  have positive : 0 < cycle := by omega
  have kept := Ledger.tick_total positive reckoned.backlog_nonneg
  have split := l.backlog_add_dropped cycle frame tick.gap
  unfold Settled at settled ⊢
  rw [total_concat, reckoned.dropped_eq, Ledger.tick_lastTick]
  rw [Int.mul_sub] at settled ⊢
  omega

/-- The time since the start of a session went into its instructions, is owed or was dropped, and
what is owed is too short for an instruction. So it never runs ahead, no tick runs more instructions
than four frames have time for, or one, and the host is polled once after each of them. -/
theorem time_is_accounted_for {idle s : Session σ} {cyclesPerSecond frameRate : Nat} {t₀ t : Int}
    {ticks : List (Tick σ)} (invariant : Machine.Invariant I) (steady : h.Steady I)
    (ready : idle.Ready I cyclesPerSecond frameRate) (slow : 1 ≤ nanoseconds / cyclesPerSecond)
    (reads : idle.Reads h I t₀)
    (course : Course h I patience (idle.start h) t₀ ticks s t) :
    let cycle : Int := (nanoseconds / cyclesPerSecond : Nat)
    let frame : Int := (nanoseconds / frameRate : Nat)
    (∃ owed, s.pace.owed = .whole owed ∧ 0 ≤ owed ∧ owed < cycle ∧
      cycle * (s.machine.cycles - idle.machine.cycles : Int) + owed +
        (ticks.map Tick.dropped).sum = t - t₀) ∧
    (s.machine.cycles - idle.machine.cycles : Int) ≤ (t - t₀) / cycle ∧
    ∀ tick ∈ ticks,
      (tick.left.machine.cycles : Int) ≤
        tick.found.machine.cycles + max 1 (4 * frame / cycle) ∧
      ∃ polls worked frames, tick.calls h patience = polls ++ frames ∧
        Polling tick.found.machine polls worked ∧
        Framing h.hasBuzzer worked frames tick.left.machine ∧
        tick.left.machine.cycles = tick.found.machine.cycles + polls.length := by
  intro cycle frame
  have positive : 0 < cycle := Int.natCast_pos.mpr slow
  have begun := start_of_ready ready reads
  obtain ⟨⟨l, paced, owed, rfl, settled⟩, reckons⟩ :=
    course.reckon (P := Settled cycle t₀ idle.machine.cycles) invariant steady positive begun rfl
      rfl
      (by simp [Settled]) Settled.tick
  unfold Settled at settled
  rw [← paced.executed] at settled
  refine ⟨⟨l.owed, paced.owed, owed.1, owed.2, settled⟩, ?_, ?_⟩
  · have dropped := dropped_nonneg ticks
    rw [Int.le_ediv_iff_mul_le positive, Int.mul_comm]
    omega
  · intro tick member
    obtain ⟨k, reckoned⟩ := reckons tick member
    refine ⟨?_, ?_⟩
    · rw [reckoned.left.executed, reckoned.found.executed]
      exact Ledger.tick_executed_le positive _
    · obtain ⟨polls, worked, frames, calls, polling, framing, executed, _⟩ :=
        reckoned.calls invariant steady
      exact ⟨polls, worked, frames, calls, polling, framing, executed⟩

/-- A program that runs for ever is held up for half a second, and then ticked at once. -/
theorem time_is_accounted_for_after_stall :
    let idle := atRates (Machine.withProgram {} (.cycle 0 []) [0x12, 0x00]) 700 60
      (by decide) (by decide)
    ∃ ticks s,
      Course quietHost (Timeless Machine.InRange) 0 (idle.start quietHost) 0 ticks s 516000001 ∧
      ticks.map Tick.gap = [16000000, 500000000, 1] ∧
      (∃ owed, s.pace.owed = .whole owed ∧ 0 ≤ owed ∧ owed < (nanoseconds / 700 : Nat) ∧
        (nanoseconds / 700 : Nat) * (s.machine.cycles - idle.machine.cycles : Int) + owed +
          (ticks.map Tick.dropped).sum = 516000001 - 0) ∧
      (s.machine.cycles - idle.machine.cycles : Int) ≤
        (516000001 - 0) / (nanoseconds / 700 : Nat) ∧
      ∀ tick ∈ ticks, (tick.left.machine.cycles : Int) ≤ tick.found.machine.cycles +
        max 1 (4 * (nanoseconds / 60 : Nat) / (nanoseconds / 700 : Nat)) := by
  intro idle
  have looping := Machine.withProgram_looping {} (.cycle 0 [])
  obtain ⟨ticks, s, gaps, course⟩ := looping_course_atRates looping (by decide : 0 < 700)
    (by decide : 0 < 60) (by decide) [16000000, 500000000, 1] (by decide)
  obtain ⟨accounted, ahead, bounded⟩ := time_is_accounted_for Machine.inRange_invariant
    (quietHost_steady _) (atRates_ready looping.range _ _) (by decide) (quietHost_reads _ _) course
  exact ⟨ticks, s, course, gaps, accounted, ahead, fun tick member => (bounded tick member).1⟩

end Session

end ChipEight
