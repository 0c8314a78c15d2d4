import ChipEight.Proofs.Drift

/-!
A burst ends because every turn lowers the time owed. That is so up to one instruction a nanosecond;
above, a tick of a program that runs for ever never ends.
-/

namespace ChipEight

variable {σ : Type}

/-- A host that, when it is polled, sets no other rates and adds no time for one more instruction.
It may start or tick the session itself. Its clock counts whole nanoseconds. -/
structure Host.Unhurried (h : Host σ) : Prop where
  clock : ∀ outside, ∃ t : Int, (h.clock outside).1 = .ok (.whole t)
  settings : ∀ s, (h.react .poll s).settings = s.settings
  owed : ∀ s {cycle owed : Int}, s.settings.cyclePeriod = .whole cycle →
    s.pace.owed = .whole owed →
    ∃ left : Int, (h.react .poll s).pace.owed = .whole left ∧ (left ≤ owed ∨ left < cycle)

theorem quietHost_unhurried : quietHost.Unhurried where
  clock t := ⟨t, rfl⟩
  settings _ := rfl
  owed _ _ _ _ owes := ⟨_, owes, .inl (Int.le_refl _)⟩

namespace Session

variable {h : Host σ} {s : Session σ} {cycle frame owed last t : Int}

structure Timed (s : Session σ) (cyclesPerSecond frameRate : Nat) : Prop where
  cyclesPerSecond : s.settings.cyclesPerSecond.perSecond = .whole cyclesPerSecond
  frameRate : s.settings.frameRate.perSecond = .whole frameRate
  owed : ∃ owed : Int, s.pace.owed = .whole owed
  lastTick : ∀ marks ∈ s.pace.marks, ∃ last : Int, marks.lastTick = .whole last

theorem spend_pays (period : s.settings.cyclePeriod = .whole cycle)
    (owes : s.pace.owed = .whole owed) :
    (Attempt.left (spend s)).pace.owed = .whole (owed - cycle) ∧
      (Attempt.left (spend s)).settings = s.settings := by
  have kept : Attempt.Keeps
      (fun t : Session σ => t.pace.owed = .whole (owed - cycle) ∧ t.settings = s.settings)
      (Attempt.within machine (fun s machine => { s with machine }) Machine.step) :=
    .frame _ fun _ _ paid => paid
  rw [spend, Attempt.get_bind, owes, period, Number.minus_whole]
  exact kept _ ⟨rfl, rfl⟩

/-- After a whole turn, the poll included, one instruction's time less is owed, or less than that
time at all. -/
theorem turn_pays (unhurried : h.Unhurried) (period : s.settings.cyclePeriod = .whole cycle)
    (owes : s.pace.owed = .whole owed) {answer : Option Fault} {after : Session σ}
    (spent : spend s = .ok answer after) :
    (h.react .poll after.countCycle).settings.cyclePeriod = .whole cycle ∧
      ∃ left : Int, (h.react .poll after.countCycle).pace.owed = .whole left ∧
        (left ≤ owed - cycle ∨ left < cycle) := by
  obtain ⟨paid, kept⟩ := spend_pays period owes
  rw [spent, Attempt.left_ok] at paid kept
  have same : after.countCycle.settings.cyclePeriod = .whole cycle := by
    rw [← period, ← kept]
    rfl
  obtain ⟨left, polled, fewer⟩ := unhurried.owed after.countCycle same paid
  rw [← unhurried.settings after.countCycle] at same
  exact ⟨same, left, polled, fewer⟩

theorem burst_ends (unhurried : h.Unhurried) (positive : 0 < cycle) {turns : Nat}
    (period : s.settings.cyclePeriod = .whole cycle) (owes : s.pace.owed = .whole owed)
    (enough : owed < cycle * (turns + 1)) : (burst h turns s).1 ≠ .unfinished := by
  -- each turn takes one instruction's time from what is owed
  induction turns generalizing s owed with
  | zero =>
    have short : ¬ s.settings.cyclePeriod ≤ s.pace.owed := by
      rw [period, owes, Number.whole_le_whole]
      omega
    rw [burst, if_neg short]
    rintro ⟨⟩
  | succ turns ih =>
    rw [burst]
    split
    · cases spent : spend s with
      | error failure left => rintro ⟨⟩
      | ok answer after =>
        cases answer with
        | some fault => rintro ⟨⟩
        | none =>
          obtain ⟨period, left, owes, fewer⟩ := turn_pays unhurried period owes spent
          cases failed : (h.react .poll after.countCycle).failure with
          | some failure =>
            simp only [failed]
            rintro ⟨⟩
          | none =>
            simp only [failed]
            refine ih period owes ?_
            have room := Int.mul_nonneg (Int.le_of_lt positive) (Int.natCast_nonneg turns)
            rw [Int.natCast_succ, Int.mul_add, Int.mul_one] at enough
            rw [Int.mul_add, Int.mul_one] at enough ⊢
            omega
    · rintro ⟨⟩

variable {cyclesPerSecond frameRate : Nat}

theorem Timed.cyclePeriod (timed : s.Timed cyclesPerSecond frameRate) :
    s.settings.cyclePeriod = .whole (nanoseconds / cyclesPerSecond : Nat) :=
  period_of_whole timed.cyclesPerSecond

theorem Timed.framePeriod (timed : s.Timed cyclesPerSecond frameRate) :
    s.settings.framePeriod = .whole (nanoseconds / frameRate : Nat) :=
  period_of_whole timed.frameRate

theorem Timed.started (timed : s.Timed cyclesPerSecond frameRate) (unhurried : h.Unhurried) :
    (s.started h).Timed cyclesPerSecond frameRate ∧
      ∃ marks, (s.started h).pace.marks = some marks := by
  unfold Session.started
  cases begun : s.pace.marks with
  | some marks => exact ⟨timed, marks, begun⟩
  | none =>
    obtain ⟨t, reading⟩ := unhurried.clock s.outside
    simp only [Option.isNone_none, if_true, start, now, reading]
    refine ⟨{ timed with owed := ⟨0, rfl⟩, lastTick := ?_ }, _, rfl⟩
    rintro marks ⟨⟩
    exact ⟨t, rfl⟩

def longestBacklog (cyclesPerSecond frameRate : Nat) : Nat :=
  max (4 * (nanoseconds / frameRate)) (nanoseconds / cyclesPerSecond)

theorem Timed.accrue_le {marks : Marks} (timed : s.Timed cyclesPerSecond frameRate)
    (begun : s.pace.marks = some marks) (t : Int) :
    ∃ accrued left, s.accrue (.whole t) = .ok accrued ∧
      accrued.settings.cyclePeriod = .whole (nanoseconds / cyclesPerSecond : Nat) ∧
      accrued.pace.owed = .whole left ∧ left ≤ longestBacklog cyclesPerSecond frameRate := by
  obtain ⟨owed, owes⟩ := timed.owed
  obtain ⟨last, lastTick⟩ := timed.lastTick marks begun
  refine ⟨_, _, accrue_whole timed.cyclePeriod timed.framePeriod owes begun lastTick t,
    timed.cyclePeriod, rfl, ?_⟩
  unfold longestBacklog
  omega

theorem tickAt_ends (unhurried : h.Unhurried) (positive : 0 < nanoseconds / cyclesPerSecond)
    {marks : Marks} (timed : s.Timed cyclesPerSecond frameRate)
    (begun : s.pace.marks = some marks) (patience : Nat) (t : Int) :
    (s.tickAt h patience (.whole t)).1 ≠ .unfinished := by
  obtain ⟨accrued, left, grown, period, owes, _⟩ := timed.accrue_le begun t
  have ends : (burst h (accrued.pace.owed.truncate.toNat + patience) accrued).1 ≠ .unfinished := by
    refine burst_ends unhurried (Int.natCast_pos.mpr positive) period owes ?_
    -- an instruction takes a nanosecond at least, and there is fuel for all nanoseconds owed
    have fuel : left < (left.toNat + patience : Nat) + 1 := by omega
    rw [owes]
    have whole := Int.mul_le_mul_of_nonneg_right (Int.natCast_pos.mpr positive)
      (show 0 ≤ ((left.toNat + patience : Nat) + 1 : Int) by omega)
    exact Int.lt_of_lt_of_le fuel (by rwa [Int.zero_add, Int.one_mul] at whole)
  simp only [tickAt, grown]
  split
  · unfold concluded
    split <;> rintro ⟨⟩
  · exact ends

theorem tick_ends (unhurried : h.Unhurried) (positive : 0 < nanoseconds / cyclesPerSecond)
    (timed : s.Timed cyclesPerSecond frameRate) (patience : Nat) :
    (s.tick h patience).1 ≠ .unfinished := by
  obtain ⟨timed, marks, begun⟩ := timed.started unhurried
  obtain ⟨t, reading⟩ := unhurried.clock (s.started h).outside
  let read : Session σ := { s.started h with outside := (h.clock (s.started h).outside).2 }
  have now : (s.started h).now h = (.ok (.whole t), read) := by
    simp only [Session.now, reading, read]
  cases broken : (s.started h).failure with
  | some failure =>
    simp only [tick, broken]
    rintro ⟨⟩
  | none =>
    have same : s.tick h patience = read.tickAt h patience (.whole t) := by
      simp only [tick, broken, now]
    have timed : read.Timed cyclesPerSecond frameRate := { timed with }
    rw [same]
    exact tickAt_ends unhurried positive timed begun patience t

theorem burst_ends_within (unhurried : h.Unhurried) (positive : 0 < nanoseconds / cyclesPerSecond)
    (timed : s.Timed cyclesPerSecond frameRate) (t : Int) :
    ∃ accrued, (s.started h).accrue (.whole t) = .ok accrued ∧
      (burst h (longestBacklog cyclesPerSecond frameRate / (nanoseconds / cyclesPerSecond))
        accrued).1 ≠ .unfinished := by
  obtain ⟨timed, marks, begun⟩ := timed.started unhurried
  obtain ⟨accrued, left, grown, period, owes, bounded⟩ := timed.accrue_le begun t
  refine ⟨accrued, grown, burst_ends unhurried (Int.natCast_pos.mpr positive) period owes ?_⟩
  have room := Nat.lt_mul_div_succ (longestBacklog cyclesPerSecond frameRate) positive
  exact Int.lt_of_le_of_lt bounded (by exact_mod_cast room)

theorem looping_burst {s : Session Int} {l : Ledger}
    (paced : s.Paced (Timeless Machine.Looping) 0 frame l)
    (owed : 0 ≤ l.owed) (fuel : Nat) : (burst quietHost fuel s).1 = .unfinished := by
  induction fuel generalizing s l with
  | zero => rw [burst, if_pos ((cyclePeriod_le_owed paced).mpr owed)]
  | succ fuel ih =>
    rcases spend_of_paced Machine.looping_invariant paced with
      ⟨fault, left, _, stopped⟩ | ⟨after, spent, counted⟩
    · obtain ⟨next, jumped, _⟩ := paced.holds.step
      rw [stopped] at jumped
      cases jumped
    · have same : quietHost.react .poll after.countCycle = after.countCycle := rfl
      rw [burst, if_pos ((cyclePeriod_le_owed paced).mpr owed)]
      simp only [spent, same, counted.unbroken]
      exact ih counted (by simpa only [Ledger.spend, Int.sub_zero] using owed)

theorem looping_tick {s : Session Int} {l : Ledger}
    (paced : s.Paced (Timeless Machine.Looping) 0 frame l)
    (backlog : 0 ≤ l.backlog 0 frame s.outside) (patience : Nat) :
    (s.tick quietHost patience).1 = .unfinished := by
  obtain ⟨accrued, grown, owing⟩ := accrue_of_paced paced s.outside
  have going : s.started quietHost = s := by
    simp only [started, paced.marks, Option.isNone_some, Bool.false_eq_true, if_false]
  have same : s.tick quietHost patience = s.tickAt quietHost patience (.whole s.outside) := by
    simp only [tick, going, paced.unbroken]
    rfl
  have endless := looping_burst owing backlog (accrued.pace.owed.truncate.toNat + patience)
  rw [same]
  simp only [tickAt, grown]
  split
  · rename_i finished
    rw [finished] at endless
    cases endless
  · exact endless

/-- Whatever is run at these rates, every tick ends, if only it has the patience. -/
def TicksEnd (cyclesPerSecond frameRate : Nat) : Prop :=
  ∀ {σ : Type} (h : Host σ) (s : Session σ), h.Unhurried → s.Timed cyclesPerSecond frameRate →
    ∃ patience, (s.tick h patience).1 ≠ .unfinished

/-- Whatever is run at these rates, every turn of a burst lowers the time owed, the burst of a tick
takes no more turns than instructions fit into the longest backlog, and no tick needs patience. -/
def TicksEndInTime (cyclesPerSecond frameRate : Nat) : Prop :=
  ∀ {σ : Type} (h : Host σ) (s : Session σ), h.Unhurried → s.Timed cyclesPerSecond frameRate →
    (Attempt.left (spend s)).pace.owed < s.pace.owed ∧
      (∀ t : Int, ∃ accrued, (s.started h).accrue (.whole t) = .ok accrued ∧
        (burst h (longestBacklog cyclesPerSecond frameRate / (nanoseconds / cyclesPerSecond))
          accrued).1 ≠ .unfinished) ∧
      ∀ patience, (s.tick h patience).1 ≠ .unfinished

theorem ticksEndInTime_of_slow {cyclesPerSecond : Nat} (cycles : 1 ≤ cyclesPerSecond)
    (slow : cyclesPerSecond ≤ nanoseconds) (frameRate : Nat) :
    TicksEndInTime cyclesPerSecond frameRate := by
  intro σ h s unhurried timed
  have positive := period_pos cycles slow
  obtain ⟨owed, owes⟩ := timed.owed
  refine ⟨?_, burst_ends_within unhurried positive timed, tick_ends unhurried positive timed⟩
  rw [(spend_pays timed.cyclePeriod owes).1, owes, Number.whole_lt_whole]
  omega

theorem not_ticksEnd_of_fast {m : Machine} (looping : m.Looping) {cyclesPerSecond frameRate : Nat}
    (fast : nanoseconds < cyclesPerSecond) (frames : 1 ≤ frameRate) :
    ¬ TicksEnd cyclesPerSecond frameRate := by
  intro ends
  have cycles : 0 < cyclesPerSecond := by omega
  have none : nanoseconds / cyclesPerSecond = 0 := Nat.div_eq_of_lt fast
  have ready := atRates_ready looping cycles frames
  have paced := start_of_ready ready (quietHost_reads _ _)
  rw [none] at paced
  have timed : Timed ((atRates m cyclesPerSecond frameRate cycles frames).start quietHost)
      cyclesPerSecond frameRate :=
    { cyclesPerSecond := rfl
      frameRate := rfl
      owed := ⟨0, rfl⟩
      lastTick := by rintro marks ⟨⟩; exact ⟨0, rfl⟩ }
  have backlog : 0 ≤ min (0 + ((0 : Int) - 0)) (max (4 * (nanoseconds / frameRate : Nat)) 0) := by
    omega
  obtain ⟨patience, ended⟩ := ends quietHost _ quietHost_unhurried timed
  exact ended (looping_tick paced backlog patience)

/-- Every tick ends exactly up to one instruction a nanosecond, and then it ends in time. -/
theorem ticksEnd_iff {cyclesPerSecond frameRate : Nat} (cycles : 1 ≤ cyclesPerSecond)
    (frames : 1 ≤ frameRate) :
    (TicksEnd cyclesPerSecond frameRate ↔ cyclesPerSecond ≤ nanoseconds) ∧
      (cyclesPerSecond ≤ nanoseconds → TicksEndInTime cyclesPerSecond frameRate) := by
  refine ⟨⟨fun ends => ?_, fun slow σ h s unhurried timed => ⟨0, ?_⟩⟩,
    fun slow => ticksEndInTime_of_slow cycles slow frameRate⟩
  · by_contra fast
    exact not_ticksEnd_of_fast (Machine.withProgram_looping {} (.cycle 0 [])) (by omega) frames ends
  · exact (ticksEndInTime_of_slow cycles slow frameRate h s unhurried timed).2.2 0

/-- At two instructions a nanosecond ticks need not end, at one a nanosecond they do. -/
theorem ticksEnd_at_one_instruction_a_nanosecond_not_at_two :
    TicksEndInTime 1000000000 60 ∧ ¬ TicksEnd 2000000000 60 := by
  constructor
  · exact (ticksEnd_iff (by decide) (by decide)).2 (by decide)
  · intro ends
    exact absurd ((ticksEnd_iff (by decide) (by decide)).1.mp ends) (by decide)

end Session

end ChipEight
