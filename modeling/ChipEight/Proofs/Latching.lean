import ChipEight.Proofs.Faults
import ChipEight.Proofs.Requests

/-!
Two runs, one after the other, are a single run of both lengths. A run that meets a fault leaves it
latched until a reset.
-/

namespace ChipEight

open EStateM (Result)

namespace Machine

variable {m : Machine} {fault : Fault}

abbrev StoppedAt (fault : Fault) (m : Machine) : Prop :=
  m.fault = some fault

theorem stoppedAt_steadfast (fault : Fault) : Steadfast (StoppedAt fault) where
  change _ _ _ _ _ _ _ stopped := stopped
  refill _ _ stopped := stopped

structure Latched (reason : Fault) (m : Machine) : Prop where
  fault : m.fault = some reason
  step : m.step = .ok (some reason) m
  run : ∀ n, 0 < n → m.run n = .ok (some reason) m

theorem latched_of_fault (stopped : m.fault = some fault) : m.Latched fault where
  fault := stopped
  step := step_of_fault stopped
  run n positive := by
    obtain ⟨k, rfl⟩ := Nat.exists_eq_add_one.mpr positive
    rw [Machine.run, step_of_fault stopped]

theorem left_run_of_fault (stopped : m.fault = some fault) (n : Nat) :
    Attempt.left (m.run n) = m := by
  cases n with
  | zero => rfl
  | succ n => rw [(latched_of_fault stopped).run (n + 1) n.succ_pos, Attempt.left_ok]

theorem fault_of_step {after : Machine} (stepped : m.step = .ok (some fault) after) :
    after.fault = some fault := by
  have outcome := m.stepped
  rw [stepped] at outcome
  cases outcome with
  | stopped latched => exact latched
  | stops => rfl

theorem fault_of_run {n : Nat} {after : Machine} (ran : m.run n = .ok (some fault) after) :
    after.fault = some fault := by
  induction n generalizing m with
  | zero => cases ran
  | succ n ih =>
    rw [Machine.run] at ran
    cases outcome : m.step with
    | error failure left =>
      rw [outcome] at ran
      cases ran
    | ok answer next =>
      rw [outcome] at ran
      cases answer with
      | none => exact ih ran
      | some _ =>
        cases ran
        exact fault_of_step outcome

/-- One run and then another, unless a failure escapes from the first. -/
def runTwice (a b : Nat) (m : Machine) : Result Failure Machine (Option Fault) :=
  match m.run a with
  | .ok _ middle => middle.run b
  | .error failure left => .error failure left

theorem left_runTwice (m : Machine) (a b : Nat) :
    Attempt.left (m.runTwice a b) = Attempt.left (m.run (a + b)) := by
  induction a generalizing m with
  | zero => rw [Nat.zero_add]; rfl
  | succ a ih =>
    rw [Nat.add_right_comm, runTwice, Machine.run, Machine.run]
    cases outcome : m.step with
    | error failure left => rfl
    | ok answer next =>
      cases answer with
      | none => exact ih next
      | some fault => exact left_run_of_fault (fault_of_step outcome) b

def stepAnswers : Nat → Machine → List (Option Fault)
  | 0, _ => []
  | n + 1, m =>
    match m.step with
    | .ok none next => none :: stepAnswers n next
    | .ok (some fault) _ => [some fault]
    | .error _ _ => []

theorem cycles_of_disturbed (disturbed : ∀ next, m.step ≠ .ok none next) :
    (Attempt.left m.step).cycles = m.cycles := by
  have kept := m.cycle_fixedPart
  have stepped := m.stepped
  generalize m.step = result at disturbed stepped ⊢
  cases stepped with
  | stopped => rfl
  | done => exact absurd rfl (disturbed _)
  | stops running failed | escapes running failed =>
    rw [failed] at kept
    exact congrArg (·.2.2.2) kept

theorem cycles_run (m : Machine) (n : Nat) :
    (Attempt.left (m.run n)).cycles = m.cycles + (stepAnswers n m).countP Option.isNone := by
  induction n generalizing m with
  | zero => rfl
  | succ n ih =>
    rw [Machine.run, stepAnswers]
    cases outcome : m.step with
    | error failure left =>
      have same : (Attempt.left m.step).cycles = m.cycles := cycles_of_disturbed fun next quiet => by
        rw [outcome] at quiet
        cases quiet
      rwa [outcome] at same
    | ok answer next =>
      cases answer with
      | none =>
        obtain ⟨_, _, counted⟩ := step_counts outcome
        have counts : (none :: stepAnswers n next).countP Option.isNone =
            (stepAnswers n next).countP Option.isNone + 1 := List.countP_cons_of_pos rfl
        simp only [ih next, counted, counts]
        omega
      | some fault =>
        have same : (Attempt.left m.step).cycles = m.cycles := cycles_of_disturbed fun next quiet => by
          rw [outcome] at quiet
          cases quiet
        rwa [outcome] at same

theorem serve_keeps_fault {request : Request} (keepsOn : request ≠ .reset) :
    Attempt.Keeps (StoppedAt fault) (serve request) := by
  have steadfast := stoppedAt_steadfast fault
  cases request with
  | reset => exact absurd rfl keepsOn
  | configure settings => exact .bind (.modify fun _ stopped => stopped) fun _ => .pure _
  | loadRom program =>
    have loaded (bytes : List UInt8) : Attempt.Keeps (StoppedAt fault) (loadRom bytes) :=
      .bind (steadfast.onMemory (Memory.Keeps.write · romStart bytes)) fun _ =>
        .modify fun _ stopped => stopped
    exact .bind (.lift _) fun bytes => .bind (loaded bytes) fun _ => .pure _
  | step =>
    refine .bind (fun m stopped => ?_) fun _ => .pure _
    rw [step_of_fault stopped]
    exact stopped
  | run n =>
    refine .bind (fun m stopped => ?_) fun _ => .pure _
    rw [left_run_of_fault stopped]
    exact stopped
  | loadFont | renew | fetch | execute | read | write | command =>
    exact fun m stopped => steadfast.comply stopped rfl

/-- Runs compose and count the steps that were done, and a fault that a step or a run answers stays
until a reset. -/
theorem runs_compose_and_faults_latch (m : Machine) :
    (∀ a b, Attempt.left (m.runTwice a b) = Attempt.left (m.run (a + b))) ∧
    (∀ n, (Attempt.left (m.run n)).cycles = m.cycles + (stepAnswers n m).countP Option.isNone) ∧
    ∀ fault after, (m.step = .ok (some fault) after ∨ ∃ n, m.run n = .ok (some fault) after) →
      ∀ later : List Request, (∀ request ∈ later, request ≠ .reset) →
        (after.complyAll later).Latched fault := by
  refine ⟨left_runTwice m, cycles_run m, fun fault after found later keepOn => ?_⟩
  have stopped : StoppedAt fault after := by
    rcases found with stepped | ⟨n, ran⟩
    · exact fault_of_step stepped
    · exact fault_of_run ran
  have stays : StoppedAt fault (after.complyAll later) :=
    complyAll_keeps (fun request member => serve_keeps_fault (keepOn request member)) stopped
  exact latched_of_fault stays

/-- A return without a call stops the machine for good, though another program is loaded and the
program counter is put back. -/
theorem runs_compose_and_faults_latch_at_return :
    ∃ fault after, (withProgram {} (.cycle 0 []) [0x00, 0xEE]).step = .ok (some fault) after ∧
      (after.complyAll [.loadRom (.list [.whole 0x12, .whole 0x00]), .command "setpc" [.whole 0x200],
        .configure {}, .run 5, .command "press" [.whole 3]]).Latched fault := by
  have reachable := withProgram_reachable {} (.cycle 0 []) [0x00, 0xEE]
  obtain ⟨running, stops⟩ := stop?_of_return {} (.cycle 0 []) (by decide) (by decide)
    (by decide : ([0x00, 0xEE].getD 0 0 : UInt8).toNat * 256 + ([0x00, 0xEE].getD 1 0 : UInt8).toNat = 0x00EE)
  obtain ⟨fault, _, stepped⟩ := step_of_stop reachable.inRange running stops
  exact ⟨fault, _, stepped, (runs_compose_and_faults_latch _).2.2 fault _ (.inl stepped) _ (by simp)⟩

end Machine

end ChipEight
