import ChipEight.Proofs.Pacing
import ChipEight.Proofs.Reachable

/-!
A session keeps time if, as long as ticks are at most a frame apart, it has run one instruction for
each whole period. At slow rates it cuts off time that no pause has cost.
-/

namespace ChipEight

namespace Ledger

variable {cycle frame : Int} {l : Ledger}

/-- All time from `t₀` to the last tick went into the instructions after the first `n`, up to what is
owed, which is too short for one more. -/
structure OnTime (l : Ledger) (cycle t₀ : Int) (n : Nat) : Prop where
  owed : 0 ≤ l.owed ∧ l.owed < cycle
  total : cycle * (l.executed - n : Int) + l.owed = l.lastTick - t₀

theorem OnTime.executed {t₀ : Int} {n : Nat} (onTime : l.OnTime cycle t₀ n) :
    (l.executed - n : Int) = (l.lastTick - t₀) / cycle := by
  have positive : 0 < cycle := by
    have owed := onTime.owed
    omega
  rw [← onTime.total, Int.add_comm, Int.add_mul_ediv_left _ _ (by omega),
    Int.ediv_eq_zero_of_lt onTime.owed.1 onTime.owed.2, Int.zero_add]

theorem backlog_of_le {t : Int} (room : l.owed + (t - l.lastTick) ≤ max (4 * frame) cycle) :
    l.backlog cycle frame t = l.owed + (t - l.lastTick) :=
  min_eq_left room

theorem OnTime.tick {t₀ t : Int} {n : Nat} (onTime : l.OnTime cycle t₀ n) (later : l.lastTick ≤ t)
    (room : l.owed + (t - l.lastTick) ≤ max (4 * frame) cycle) :
    (l.tick cycle frame t).OnTime cycle t₀ n := by
  have owed := onTime.owed
  have positive : 0 < cycle := by omega
  have backlog := backlog_of_le room
  have nonneg : 0 ≤ l.backlog cycle frame t := by omega
  refine ⟨tick_owed_bounds positive l t, ?_⟩
  have kept := tick_total positive nonneg
  have total := onTime.total
  rw [Int.mul_sub] at total ⊢
  rw [tick_lastTick]
  omega

theorem OnTime.room {t₀ t : Int} {n : Nat} (onTime : l.OnTime cycle t₀ n)
    (soon : t - l.lastTick ≤ frame) (fast : cycle ≤ 3 * frame + 1 ∨ frame = 1) :
    l.owed + (t - l.lastTick) ≤ max (4 * frame) cycle := by
  have owed := onTime.owed
  omega

end Ledger

namespace Session

variable {σ : Type} {I : Machine → σ → Prop} {h : Host σ} {patience : Nat}

/-! ### Runs -/

def Beat (I : Machine → σ → Prop) (h : Host σ) (patience : Nat) (s : Session σ) (t : Int)
    (after : Session σ) : Prop :=
  ∃ idle ending, Undisturbed I s idle ∧ idle.Reads h I t ∧ idle.tick h patience = (ending, after) ∧
    ∀ fault, ending ≠ .fault fault

def Within (longest distance : Int) : Prop :=
  0 ≤ distance ∧ distance ≤ longest

/-- What becomes of a session by one beat after another. The last reading of the clock was `t₀` at
first, and is at some distance from each to the next. -/
inductive Ticked (I : Machine → σ → Prop) (h : Host σ) (patience : Nat) (distance : Int → Prop)
    (first : Session σ) (t₀ : Int) : Session σ → Int → Prop
  | start : Ticked I h patience distance first t₀ first t₀
  | beat {s after : Session σ} {t u : Int} (before : Ticked I h patience distance first t₀ s t)
      (apart : distance (u - t)) (beat : Beat I h patience s u after) :
      Ticked I h patience distance first t₀ after u

theorem Beat.paced {s after : Session σ} {cycle frame t : Int} {l : Ledger}
    (beat : Beat I h patience s t after) (invariant : Machine.Invariant I) (steady : h.Steady I)
    (positive : 0 < cycle) (paced : s.Paced I cycle frame l)
    (backlog : 0 ≤ l.backlog cycle frame t) :
    after.Paced I cycle frame (l.tick cycle frame t) := by
  obtain ⟨idle, ending, quiet, reads, ticked, running⟩ := beat
  rcases tick_of_paced invariant steady positive (paced.undisturbed quiet) reads backlog patience
    with ⟨fault, _, _, _, stopped, _⟩ | ⟨finished, ended, counted⟩
  · rw [ticked] at stopped
    exact absurd stopped (running fault)
  · rw [ticked] at ended
    cases ended
    exact counted

theorem Ticked.onTime {first s : Session σ} {cycle frame t₀ t : Int} {l : Ledger} {n : Nat}
    (ticked : Ticked I h patience (Within frame) first t₀ s t)
    (invariant : Machine.Invariant I) (steady : h.Steady I) (paced : first.Paced I cycle frame l)
    (onTime : l.OnTime cycle t₀ n) (begun : l.lastTick = t₀)
    (fast : cycle ≤ 3 * frame + 1 ∨ frame = 1) :
    ∃ l, s.Paced I cycle frame l ∧ l.OnTime cycle t₀ n ∧ l.lastTick = t := by
  -- the ledger accounts for all time so far, so the next tick has nothing to cut off either
  induction ticked with
  | start => exact ⟨l, paced, onTime, begun⟩
  | beat _ apart beat ih =>
    obtain ⟨l, paced, onTime, rfl⟩ := ih
    obtain ⟨later, soon⟩ := apart
    have owed := onTime.owed
    have room := onTime.room soon fast
    have backlog := Ledger.backlog_of_le room
    refine ⟨_, beat.paced invariant steady (by omega) paced (by omega),
      onTime.tick (by omega) room, Ledger.tick_lastTick _ _⟩

/-- Whatever is run at these rates, ticks that are at most a frame apart leave as many instructions
executed as there were whole periods since the start. -/
def KeepsTime (cyclesPerSecond frameRate : Nat) : Prop :=
  ∀ {σ : Type} (h : Host σ) (I : Machine → σ → Prop) (patience : Nat) (idle s : Session σ)
    (t₀ t : Int), Machine.Invariant I → h.Steady I → idle.Ready I cyclesPerSecond frameRate →
    idle.Reads h I t₀ →
    Ticked I h patience (Within (nanoseconds / frameRate : Nat)) (idle.start h) t₀ s t →
    (s.machine.cycles - idle.machine.cycles : Int) = (t - t₀) / (nanoseconds / cyclesPerSecond : Nat)

theorem period_pos {n : Nat} (some : 1 ≤ n) (slow : n ≤ nanoseconds) : 0 < nanoseconds / n :=
  Nat.div_pos slow some

theorem keepsTime_of_fast {cyclesPerSecond frameRate : Nat} (some : 1 ≤ cyclesPerSecond)
    (whole : cyclesPerSecond ≤ nanoseconds)
    (fast : nanoseconds / cyclesPerSecond ≤ 3 * (nanoseconds / frameRate) + 1 ∨
      nanoseconds / frameRate = 1) : KeepsTime cyclesPerSecond frameRate := by
  intro σ h I patience idle s t₀ t invariant steady ready reads ticked
  have positive := period_pos some whole
  have paced := start_of_ready ready reads
  obtain ⟨l, paced, onTime, rfl⟩ := ticked.onTime (n := idle.machine.cycles) invariant steady paced
    ⟨⟨Int.le_refl 0, by simp only; omega⟩, by simp⟩ rfl (by omega)
  rw [← onTime.executed, paced.executed]

end Session

/-! ### A program that runs for ever -/

structure Machine.Looping (m : Machine) : Prop where
  range : m.InRange
  running : m.fault = none
  pc : m.registers.pc = romStart
  word : m.wordAt romStart = 0x1200

theorem Machine.Looping.step {m : Machine} (looping : m.Looping) :
    ∃ next, m.step = .ok none next ∧ next.Looping := by
  have decoded : Instruction.decode (m.wordAt m.registers.pc) = .ok ⟨.jump, 0x1200⟩ := by
    rw [looping.pc, looping.word]
    rfl
  have jumped : cycle m = .ok ⟨⟩ (m.fetched.goto romStart) :=
    cycle_of_decode looping.range (by rw [looping.pc]; decide) decoded
  refine ⟨{ m.fetched.goto romStart with cycles := m.cycles + 1 }, ?_, ?_⟩
  · simp only [Machine.step, looping.running, jumped]
    rfl
  · exact ⟨{ looping.range.fetched.goto romStart with }, looping.running, rfl, looping.word⟩

theorem Machine.looping_invariant {σ : Type} :
    Machine.Invariant fun (m : Machine) (_ : σ) => m.Looping where
  range looping := looping.range
  step looping stepped := by
    obtain ⟨again, jumped, kept⟩ := looping.step
    rw [stepped] at jumped
    cases jumped
    exact kept
  countDown looping :=
    { looping with range := { looping.range with timers := looping.range.timers.tick } }

theorem Machine.withProgram_looping (settings : Settings) (random : Supply UInt8) :
    (withProgram settings random [0x12, 0x00]).Looping := by
  have fits : [(0x12 : UInt8), 0x00].length ≤ maxRomSize := by decide
  have loaded := withProgram_eq settings random fits
  refine ⟨(withProgram_reachable settings random _).inRange, ?_, ?_,
    wordAt_withProgram settings random fits 0 (by decide)⟩
  · rw [loaded]
    rfl
  · rw [loaded]
    rfl

/-! ### Time that is lost -/

def quietHost : Host Int where
  clock t := (.ok (.whole t), t)
  react _ s := s

namespace Session

variable {cycle frame : Int} {l : Ledger}

abbrev Timeless (I : Machine → Prop) (m : Machine) (_ : Int) : Prop :=
  I m

theorem quietHost_steady (I : Machine → Int → Prop) : quietHost.Steady I :=
  fun _ _ _ _ => ⟨rfl, rfl, rfl, rfl, id⟩

theorem quietHost_reads (I : Machine → Prop) (s : Session Int) :
    s.Reads quietHost (Timeless I) s.outside :=
  ⟨rfl, id⟩

theorem looping_beat {s : Session Int} (positive : 0 < cycle)
    (paced : s.Paced (Timeless Machine.Looping) cycle frame l) {t : Int}
    (backlog : 0 ≤ l.backlog cycle frame t) :
    ∃ after, Beat (Timeless Machine.InRange) quietHost 0 s t after ∧
      after.Paced (Timeless Machine.Looping) cycle frame (l.tick cycle frame t) := by
  have idle (I : Machine → Prop) : Undisturbed (Timeless I) s { s with outside := t } :=
    ⟨rfl, rfl, rfl, rfl, id⟩
  rcases tick_of_paced Machine.looping_invariant (quietHost_steady _) positive
    (paced.undisturbed (idle _)) (quietHost_reads _ _) backlog 0
    with ⟨fault, m, _, left, _, looping, stopped⟩ | ⟨after, ended, counted⟩
  · obtain ⟨next, jumped, _⟩ := looping.step
    rw [stopped] at jumped
    cases jumped
  · exact ⟨after, ⟨_, _, idle _, quietHost_reads _ _, ended, fun _ h => by cases h⟩, counted⟩

theorem looping_wait {first s : Session Int} {t₀ : Int} {distance : Int → Prop} (near : distance 1)
    (positive : 0 < cycle) (paced : s.Paced (Timeless Machine.Looping) cycle frame l)
    (owed : 0 ≤ l.owed)
    (ticked : Ticked (Timeless Machine.InRange) quietHost 0 distance first t₀ s l.lastTick) (n : Nat)
    (short : l.owed + n < cycle) :
    ∃ after later, after.Paced (Timeless Machine.Looping) cycle frame later ∧
      Ticked (Timeless Machine.InRange) quietHost 0 distance first t₀ after later.lastTick ∧
      later.owed = l.owed + n ∧ later.lastTick = l.lastTick + n ∧ later.executed = l.executed := by
  induction n with
  | zero => exact ⟨s, l, paced, ticked, by simp, by simp, rfl⟩
  | succ n ih =>
    obtain ⟨s, k, paced, ticked, more, last, executed⟩ := ih (by omega)
    have backlog : k.backlog cycle frame (k.lastTick + 1) = k.owed + 1 := by
      rw [Ledger.backlog_of_le (by omega)]
      omega
    obtain ⟨after, beat, counted⟩ := looping_beat positive paced (t := k.lastTick + 1) (by omega)
    have apart : distance (k.lastTick + 1 - k.lastTick) := by
      rw [add_sub_cancel_left]
      exact near
    refine ⟨after, _, counted, ?_, ?_, ?_, ?_⟩
    · rw [Ledger.tick_lastTick]
      exact ticked.beat apart beat
    · rw [Ledger.tick_owed, backlog, Int.emod_eq_of_lt (by omega) (by omega)]
      omega
    · rw [Ledger.tick_lastTick]
      omega
    · rw [Ledger.tick_executed, backlog, Int.ediv_eq_zero_of_lt (by omega) (by omega)]
      omega

def atRates (machine : Machine) (cyclesPerSecond frameRate : Nat) (cycles : 0 < cyclesPerSecond)
    (frames : 0 < frameRate) : Session Int where
  machine := machine
  settings :=
    { cyclesPerSecond := .whole cyclesPerSecond cycles, frameRate := .whole frameRate frames }
  outside := 0

theorem atRates_ready {I : Machine → Prop} {machine : Machine} (holds : I machine)
    {cyclesPerSecond frameRate : Nat} (cycles : 0 < cyclesPerSecond) (frames : 0 < frameRate) :
    (atRates machine cyclesPerSecond frameRate cycles frames).Ready (Timeless I) cyclesPerSecond
      frameRate :=
  ⟨rfl, rfl, rfl, holds⟩

/-- At slow rates a machine that runs for ever is one instruction late after the time of two: the
backlog loses time at the tick that brings the first. -/
theorem looping_late {first : Session Int} {cycle frame : Int} {l : Ledger}
    (slow : 3 * frame + 1 < cycle) (long : 2 ≤ frame)
    (paced : first.Paced (Timeless Machine.Looping) cycle frame l) (fresh : l.owed = 0)
    (begun : l.lastTick = 0) :
    ∃ late, Ticked (Timeless Machine.InRange) quietHost 0 (Within frame) first 0 late (2 * cycle) ∧
      late.machine.cycles = l.executed + 1 := by
  have near : Within frame 1 := ⟨by omega, by omega⟩
  have ticked :
      Ticked (Timeless Machine.InRange) quietHost 0 (Within frame) first 0 first l.lastTick := by
    rw [begun]
    exact .start
  -- one nanosecond short of an instruction
  obtain ⟨s, k, paced, ticked, owed, last, executed⟩ := looping_wait near (by omega) paced
    (by omega) ticked (cycle - 1).toNat (by omega)
  -- a frame more than the backlog has room for
  have cut : k.backlog cycle frame (k.lastTick + frame) = max (4 * frame) cycle := by
    unfold Ledger.backlog
    omega
  obtain ⟨s, beat, paced⟩ := looping_beat (by omega) paced (t := k.lastTick + frame) (by omega)
  have ticked := ticked.beat ⟨by omega, by omega⟩ beat
  have one : max (4 * frame) cycle / cycle = 1 ∧
      max (4 * frame) cycle % cycle = max (4 * frame) cycle - cycle := by
    rw [Int.ediv_emod_unique (by omega)]
    omega
  have left : (k.tick cycle frame (k.lastTick + frame)).owed = max (4 * frame) cycle - cycle := by
    rw [Ledger.tick_owed, cut, one.2]
  have first : (k.tick cycle frame (k.lastTick + frame)).executed = k.executed + 1 := by
    rw [Ledger.tick_executed, cut, one.1]
    rfl
  have now : (k.tick cycle frame (k.lastTick + frame)).lastTick = k.lastTick + frame :=
    Ledger.tick_lastTick _ _
  -- up to the time of two instructions
  obtain ⟨late, j, paced, ticked, _, last, executed⟩ := looping_wait near (by omega) paced
    (by omega) (by rw [now]; exact ticked) (cycle + 1 - frame).toNat (by omega)
  refine ⟨late, ?_, ?_⟩
  · rw [show 2 * cycle = j.lastTick by omega]
    exact ticked
  · rw [paced.executed]
    omega

theorem not_keepsTime_of_slow {m : Machine} (looping : m.Looping)
    {cyclesPerSecond frameRate : Nat} (cycles : 1 ≤ cyclesPerSecond) (frames : 1 ≤ frameRate)
    (slow : 3 * (nanoseconds / frameRate) + 1 < nanoseconds / cyclesPerSecond)
    (long : 2 ≤ nanoseconds / frameRate) : ¬ KeepsTime cyclesPerSecond frameRate := by
  intro keepsTime
  have paced := start_of_ready (atRates_ready looping cycles frames) (quietHost_reads _ _)
  obtain ⟨late, ticked, executed⟩ := looping_late (by omega) (by omega) paced rfl rfl
  have kept := keepsTime quietHost (Timeless Machine.InRange) 0 _ late 0 _
    Machine.inRange_invariant (quietHost_steady _) (atRates_ready looping.range cycles frames)
    (quietHost_reads _ _) ticked
  have two : (2 * (nanoseconds / cyclesPerSecond : Nat) - 0 : Int) /
      (nanoseconds / cyclesPerSecond : Nat) = 2 := by
    rw [Int.sub_zero, Int.mul_ediv_cancel _ (by omega)]
  rw [two, executed] at kept
  simp only at kept
  omega

/-- A session keeps time exactly if the longest backlog has room for all that is left of an
instruction and one frame more, or a frame is too short to be cut. -/
theorem keepsTime_iff {cyclesPerSecond frameRate : Nat} (cycles : 1 ≤ cyclesPerSecond)
    (slow : cyclesPerSecond ≤ nanoseconds) (frames : 1 ≤ frameRate)
    (shown : frameRate ≤ nanoseconds) :
    KeepsTime cyclesPerSecond frameRate ↔
      nanoseconds / cyclesPerSecond ≤ 3 * (nanoseconds / frameRate) + 1 ∨
        nanoseconds / frameRate = 1 := by
  constructor
  · intro keepsTime
    by_contra late
    have frame := period_pos frames shown
    exact not_keepsTime_of_slow (Machine.withProgram_looping {} (.cycle 0 [])) cycles frames
      (by omega) (by omega) keepsTime
  · exact keepsTime_of_fast cycles slow

theorem keepsTime_at_seven_hundred_not_at_ten : KeepsTime 700 60 ∧ ¬ KeepsTime 10 60 := by
  constructor
  · exact (keepsTime_iff (by decide) (by decide) (by decide) (by decide)).mpr (.inl (by decide))
  · intro keepsTime
    have room := (keepsTime_iff (by decide) (by decide) (by decide) (by decide)).mp keepsTime
    exact absurd room (by decide)

end Session

end ChipEight
