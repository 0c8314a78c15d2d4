import ChipEight.Proofs.Course

/-!
Pictures never get ahead of the clock, and while ticks are at most a frame apart there is one for
each whole frame since the start.
-/

namespace ChipEight

namespace Ledger

variable {cycle frame : Int}

theorem publish_lastFrame (l : Ledger) (t : Int) : (l.publish t).lastFrame = l.lastFrame := by
  unfold publish
  split <;> rfl

theorem tick_lastFrame (l : Ledger) (t : Int) :
    (l.tick cycle frame t).lastFrame =
      if frame ≤ t - l.lastFrame then
        if frame ≤ t - (l.lastFrame + frame) then t else l.lastFrame + frame
      else l.lastFrame := by
  rw [tick, publish_lastFrame]
  exact apply_ite Ledger.lastFrame _ _ _

end Ledger

inductive Calling : Machine → List Entry → Machine → Prop
  | done (m : Machine) : Calling m [] m
  | call {m last : Machine} {entry : Entry} {later : List Entry} (found : entry.found = m)
      (rest : Calling entry.left later last) : Calling m (entry :: later) last

theorem pictures_append (calls more : List Entry) :
    pictures (calls ++ more) = pictures calls + pictures more :=
  List.countP_append

theorem Polling.pictures_eq {m last : Machine} {polls : List Entry}
    (polling : Polling m polls last) : pictures polls = 0 := by
  induction polling with
  | done => rfl
  | poll _ call _ ih =>
    rw [pictures, List.countP_cons_of_neg (by simp [call])]
    exact ih

theorem Framing.counts {buzzer : Bool} {m last : Machine} {calls : List Entry}
    (framing : Framing buzzer m calls last) :
    pictures calls ≤ 1 ∧
      Calling { m with timers := m.timers.ticks (pictures calls) } calls last := by
  cases framing with
  | skipped =>
    have none : pictures [] = 0 := rfl
    rw [none, Countdown.ticks_zero]
    exact ⟨Nat.zero_le 1, .done m⟩
  | @silent picture quiet call found =>
    have one : pictures [picture] = 1 := by simp [pictures, call]
    rw [one, Countdown.ticks_succ, Countdown.ticks_zero]
    exact ⟨Nat.le_refl 1, .call found (.done _)⟩
  | @sounding sound picture loud call found shown next =>
    have one : pictures [sound, picture] = 1 := by simp [pictures, call, shown]
    rw [one, Countdown.ticks_succ, Countdown.ticks_zero]
    exact ⟨Nat.le_refl 1, .call found (.call next (.done _))⟩

namespace Session

variable {σ : Type} {h : Host σ} {I : Machine → σ → Prop} {patience : Nat}

def Tick.pictures (tick : Tick σ) (h : Host σ) (patience : Nat) : Nat :=
  ChipEight.pictures (tick.calls h patience)

def shown (h : Host σ) (patience : Nat) (ticks : List (Tick σ)) : Nat :=
  (ticks.map fun tick => tick.pictures h patience).sum

theorem shown_concat (ticks : List (Tick σ)) (tick : Tick σ) :
    shown h patience (ticks ++ [tick]) = shown h patience ticks + tick.pictures h patience :=
  total_concat _ ticks tick

theorem Tick.pictures_of_polling {tick : Tick σ} {m worked : Machine} {polls frames : List Entry}
    (calls : tick.calls h patience = polls ++ frames) (polling : Polling m polls worked) :
    tick.pictures h patience = ChipEight.pictures frames := by
  rw [Tick.pictures, calls, pictures_append, polling.pictures_eq, Nat.zero_add]

theorem Tick.Reckoned.pictures_eq {tick : Tick σ} {cycle frame : Int} {l : Ledger}
    (reckoned : tick.Reckoned h I patience cycle frame l) (invariant : Machine.Invariant I)
    (steady : h.Steady I) :
    tick.pictures h patience =
      if frame ≤ l.lastTick + tick.gap - l.lastFrame then 1 else 0 := by
  obtain ⟨polls, worked, frames, calls, polling, _, _, due⟩ := reckoned.calls invariant steady
  exact (Tick.pictures_of_polling calls polling).trans due

theorem Tick.Reckoned.counts {tick : Tick σ} {cycle frame : Int} {l : Ledger}
    (reckoned : tick.Reckoned h I patience cycle frame l) (invariant : Machine.Invariant I)
    (steady : h.Steady I) :
    tick.pictures h patience ≤ 1 ∧
    ∃ polls worked frames, tick.calls h patience = polls ++ frames ∧
      Polling tick.found.machine polls worked ∧
      Calling { worked with timers := worked.timers.ticks (tick.pictures h patience) } frames
        tick.left.machine := by
  obtain ⟨polls, worked, frames, calls, polling, framing, _⟩ := reckoned.calls invariant steady
  obtain ⟨one, calling⟩ := framing.counts
  rw [Tick.pictures_of_polling calls polling]
  exact ⟨one, polls, worked, frames, calls, polling, calling⟩

/-- The last frame was due less than a frame ago, and there was time for all pictures before it. If
no tick came late, it was due when so many frames had passed. -/
structure Cadent (h : Host σ) (patience : Nat) (frame t₀ : Int) (ticks : List (Tick σ))
    (l : Ledger) : Prop where
  near : 0 ≤ l.lastTick - l.lastFrame ∧ l.lastTick - l.lastFrame < frame
  ahead : frame * shown h patience ticks ≤ l.lastFrame - t₀
  onTime : (∀ tick ∈ ticks, tick.gap ≤ frame) → l.lastFrame = t₀ + frame * shown h patience ticks

theorem Cadent.tick {tick : Tick σ} {ticks : List (Tick σ)} {cycle frame t₀ : Int} {l : Ledger}
    (cadent : Cadent h patience frame t₀ ticks l) (invariant : Machine.Invariant I)
    (steady : h.Steady I)
    (reckoned : tick.Reckoned h I patience cycle frame l) :
    Cadent h patience frame t₀ (ticks ++ [tick])
      (l.tick cycle frame (l.lastTick + tick.gap)) := by
  have near := cadent.near
  have ahead := cadent.ahead
  have forward := reckoned.forward
  have last : (l.tick cycle frame (l.lastTick + tick.gap)).lastFrame = _ :=
    Ledger.tick_lastFrame l _
  have total : shown h patience (ticks ++ [tick]) = _ := shown_concat ticks tick
  rw [reckoned.pictures_eq invariant steady] at total
  have late : (∀ other ∈ ticks ++ [tick], other.gap ≤ frame) →
      tick.gap ≤ frame ∧ l.lastFrame = t₀ + frame * shown h patience ticks := by
    intro soon
    rw [List.forall_mem_append, List.forall_mem_singleton] at soon
    exact ⟨soon.2, cadent.onTime soon.1⟩
  by_cases due : frame ≤ l.lastTick + tick.gap - l.lastFrame
  · rw [if_pos due] at last total
    have frames : frame * (shown h patience (ticks ++ [tick]) : Int) =
        frame * shown h patience ticks + frame := by
      rw [total, Int.natCast_add, Int.mul_add, Int.natCast_one, Int.mul_one]
    refine ⟨?_, ?_, ?_⟩
    · rw [last, Ledger.tick_lastTick]
      split <;> omega
    · rw [last, frames]
      split <;> omega
    · intro soon
      obtain ⟨short, onTime⟩ := late soon
      rw [last, frames, if_neg (by omega)]
      omega
  · rw [if_neg due] at last total
    rw [Nat.add_zero] at total
    refine ⟨?_, ?_, ?_⟩
    · rw [last, Ledger.tick_lastTick]
      omega
    · rw [last, total]
      exact ahead
    · intro soon
      rw [last, total]
      exact (late soon).2

/-- Each tick shows at most one picture, and the timers count down as often. The last frame was due
less than a frame before the last tick, and there are never more pictures than whole frames since
the start. While ticks are at most a frame apart there are just as many, and each is due on time. -/
theorem frames_keep_cadence {idle s : Session σ} {cyclesPerSecond frameRate : Nat} {t₀ t : Int}
    {ticks : List (Tick σ)} (invariant : Machine.Invariant I) (steady : h.Steady I)
    (ready : idle.Ready I cyclesPerSecond frameRate) (slow : 1 ≤ nanoseconds / cyclesPerSecond)
    (long : 1 ≤ nanoseconds / frameRate) (reads : idle.Reads h I t₀)
    (course : Course h I patience (idle.start h) t₀ ticks s t) :
    let frame : Int := (nanoseconds / frameRate : Nat)
    (∀ tick ∈ ticks, tick.pictures h patience ≤ 1 ∧
      ∃ polls worked frames, tick.calls h patience = polls ++ frames ∧
        Polling tick.found.machine polls worked ∧
        Calling { worked with timers := worked.timers.ticks (tick.pictures h patience) } frames
          tick.left.machine) ∧
    ∃ marks last, s.pace.marks = some marks ∧ marks.lastFrame = .whole last ∧
      0 ≤ t - last ∧ t - last < frame ∧
      (shown h patience ticks : Int) ≤ (t - t₀) / frame ∧
      ((∀ tick ∈ ticks, tick.gap ≤ frame) →
        (shown h patience ticks : Int) = (t - t₀) / frame ∧
          last = t₀ + frame * shown h patience ticks) := by
  intro frame
  have positive : 0 < frame := Int.natCast_pos.mpr long
  have begun := start_of_ready ready reads
  have fresh : Cadent h patience frame t₀ []
      ⟨0, t₀, t₀, t₀, idle.machine.cycles, 0, 0⟩ :=
    ⟨by simp only; omega, by simp [shown], by simp [shown]⟩
  obtain ⟨⟨l, paced, _, rfl, cadent⟩, reckons⟩ :=
    course.reckon (P := Cadent h patience frame t₀) invariant steady (Int.natCast_pos.mpr slow) begun
      rfl rfl fresh fun cadent reckoned => cadent.tick invariant steady reckoned
  have near := cadent.near
  have ahead := cadent.ahead
  refine ⟨fun tick member => ?_, _, l.lastFrame, paced.marks, rfl, near.1, near.2, ?_,
    fun soon => ?_⟩
  · obtain ⟨k, reckoned⟩ := reckons tick member
    exact reckoned.counts invariant steady
  · rw [Int.le_ediv_iff_mul_le positive, Int.mul_comm]
    omega
  · have onTime := cadent.onTime soon
    refine ⟨?_, onTime⟩
    have count : l.lastTick - t₀ = l.lastTick - l.lastFrame + frame * shown h patience ticks := by
      omega
    rw [count, Int.add_mul_ediv_left _ _ (by omega), Int.ediv_eq_zero_of_lt near.1 near.2,
      Int.zero_add]

/-- Three ticks of a program that runs for ever, each a little less than a frame after the last. -/
theorem frames_keep_cadence_without_stall :
    let idle := atRates (Machine.withProgram {} (.cycle 0 []) [0x12, 0x00]) 700 60
      (by decide) (by decide)
    ∃ ticks s,
      Course quietHost (Timeless Machine.InRange) 0 (idle.start quietHost) 0 ticks s 48000000 ∧
      ticks.map Tick.gap = [16000000, 16000000, 16000000] ∧
      (∀ tick ∈ ticks, tick.pictures quietHost 0 ≤ 1) ∧
      ∃ marks last, s.pace.marks = some marks ∧ marks.lastFrame = .whole last ∧
        0 ≤ 48000000 - last ∧ 48000000 - last < (nanoseconds / 60 : Nat) ∧
        (shown quietHost 0 ticks : Int) = (48000000 - 0) / (nanoseconds / 60 : Nat) ∧
        last = 0 + (nanoseconds / 60 : Nat) * shown quietHost 0 ticks := by
  intro idle
  have looping := Machine.withProgram_looping {} (.cycle 0 [])
  obtain ⟨ticks, s, gaps, course⟩ := looping_course_atRates looping (by decide : 0 < 700)
    (by decide : 0 < 60) (by decide) [16000000, 16000000, 16000000] (by decide)
  have short : ∀ gap ∈ ticks.map Tick.gap, gap ≤ (nanoseconds / 60 : Nat) := by
    rw [gaps]
    decide
  obtain ⟨single, marks, last, begun, due, since, near, _, onTime⟩ := frames_keep_cadence
    Machine.inRange_invariant (quietHost_steady _) (atRates_ready looping.range _ _) (by decide)
    (by decide) (quietHost_reads _ _) course
  obtain ⟨count, time⟩ := onTime fun tick member => short _ (List.mem_map_of_mem member)
  exact ⟨ticks, s, course, gaps, fun tick member => (single tick member).1, marks, last, begun, due,
    since, near, count, time⟩

end Session

end ChipEight
