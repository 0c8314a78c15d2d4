import ChipEight.Session.Run

/-!
A session sees of its host only the clock and the answers to its calls. So a host may be exchanged
for one that answers the same and keeps more in mind, such as the calls made to it.
-/

namespace ChipEight

def Pace.FrameDue (pace : Pace) (period : Number) : Prop :=
  ∃ marks since, pace.marks = some marks ∧ marks.lastTick.minus marks.lastFrame = .ok since ∧
    period ≤ since

namespace Session

/-! ### What is reckoned from the pace alone -/

theorem accrue_outcome (pace : Pace) (settings : Settings) (t : Value) :
    (∃ failure, ∀ {σ : Type} (s : Session σ), s.pace = pace → s.settings = settings →
      s.accrue t = .error failure) ∨
    ∃ next, (∀ marks ∈ next.marks, marks.lastTick = t) ∧ ∀ {σ : Type} (s : Session σ),
      s.pace = pace → s.settings = settings → s.accrue t = .ok { s with pace := next } := by
  unfold accrue
  cases begun : pace.marks with
  | none =>
    refine .inr ⟨pace, ?_, ?_⟩
    · intro marks member
      rw [begun] at member
      cases member
    · rintro σ s rfl rfl
      rw [begun]
  | some marks =>
    cases minus : t.minus marks.lastTick with
    | error failure =>
      refine .inl ⟨failure, ?_⟩
      rintro σ s rfl rfl
      simp only [begun, minus]
      rfl
    | ok since =>
      cases plus : pace.owed.plus since with
      | error failure =>
        refine .inl ⟨failure, ?_⟩
        rintro σ s rfl rfl
        simp only [begun, minus, bind, Except.bind, plus]
      | ok owed =>
        refine .inr ⟨{ pace with
          owed := owed.least settings.maxCatchUp
          marks := some { marks with lastTick := t } }, ?_, ?_⟩
        · rintro _ ⟨⟩
          rfl
        · rintro σ s rfl rfl
          simp only [begun, minus, bind, Except.bind, plus]
          rfl

theorem frameIfDue_outcome (pace : Pace) (settings : Settings) (t : Value) :
    (∃ next failure, ∀ {σ : Type} (h : Host σ) (s : Session σ), s.pace = pace →
      s.settings = settings →
      s.frameIfDue h t = { s with pace := next, failure := some failure }) ∨
    (((∀ marks ∈ pace.marks, marks.lastTick = t) → ¬ pace.FrameDue settings.framePeriod) ∧
      ∀ {σ : Type} (h : Host σ) (s : Session σ), s.pace = pace → s.settings = settings →
        s.frameIfDue h t = s) ∨
    ∃ next, next.owed = pace.owed ∧ ∀ {σ : Type} (h : Host σ) (s : Session σ), s.pace = pace →
      s.settings = settings → s.frameIfDue h t = frame h { s with pace := next } := by
  unfold frameIfDue
  cases begun : pace.marks with
  | none =>
    refine .inr (.inl ⟨?_, ?_⟩)
    · rintro _ ⟨marks, _, some, _⟩
      rw [begun] at some
      cases some
    · rintro σ h s rfl rfl
      simp only [begun]
  | some marks =>
    cases since : t.minus marks.lastFrame with
    | error failure =>
      refine .inl ⟨pace, failure, ?_⟩
      rintro σ h s rfl rfl
      simp only [begun, since, breakOff]
    | ok elapsed =>
      by_cases due : settings.framePeriod ≤ elapsed
      · cases plus : marks.lastFrame.plus (.number settings.framePeriod) with
        | error failure =>
          refine .inl ⟨pace, failure, ?_⟩
          rintro σ h s rfl rfl
          simp only [begun, since, if_pos due, plus, breakOff]
        | ok next =>
          cases left : t.minus next with
          | error failure =>
            refine .inl ⟨{ pace with marks := some { marks with lastFrame := next } },
              failure, ?_⟩
            rintro σ h s rfl rfl
            simp only [begun, since, if_pos due, plus, left]
            rfl
          | ok late =>
            refine .inr (.inr ⟨{ pace with marks := some { marks with
              lastFrame := if settings.framePeriod ≤ late then t else next } }, rfl, ?_⟩)
            rintro σ h s rfl rfl
            simp only [begun, since, if_pos due, plus, left]
            rfl
      · refine .inr (.inl ⟨?_, ?_⟩)
        · rintro reading ⟨_, _, same, apart, frames⟩
          cases begun.symm.trans same
          rw [reading marks rfl, since] at apart
          cases apart
          exact due frames
        · rintro σ h s rfl rfl
          simp only [begun, since, if_neg due]

theorem publish_outcome (pace : Pace) (t : Value) :
    ∃ next broken, next.owed = pace.owed ∧
      (∀ period, next.FrameDue period → pace.FrameDue period) ∧
      ∀ {σ : Type} (s : Session σ), s.pace = pace →
        s.publish t = { s with pace := next, failure := Option.or broken s.failure } := by
  unfold publish
  cases begun : pace.marks with
  | none =>
    refine ⟨pace, none, rfl, fun _ => id, ?_⟩
    rintro σ s rfl
    simp only [begun, Option.none_or]
  | some marks =>
    cases elapsed : t.minus marks.published with
    | error failure =>
      refine ⟨pace, some failure, rfl, fun _ => id, ?_⟩
      rintro σ s rfl
      simp only [begun, elapsed, Option.some_or, breakOff]
    | ok span =>
      by_cases second : .whole nanoseconds ≤ span
      · refine ⟨{ pace with
          frameRate := ⟨pace.frames, span⟩
          cycleRate := pace.cycles
          frames := 0
          cycles := 0
          marks := some { marks with published := t } }, none, rfl, ?_, ?_⟩
        · rintro period ⟨_, since, ⟨⟩, due⟩
          exact ⟨marks, since, begun, due⟩
        · rintro σ s rfl
          simp only [begun, elapsed, if_pos second, Option.none_or]
      · refine ⟨pace, none, rfl, fun _ => id, ?_⟩
        rintro σ s rfl
        simp only [begun, elapsed, if_neg second, Option.none_or]

theorem spend_outcome (pace : Pace) (settings : Settings) :
    (∃ failure, ∀ {σ : Type} (s : Session σ), s.pace = pace → s.settings = settings →
      spend s = .error failure s) ∨
    ∃ next, next.marks = pace.marks ∧ ∀ {σ : Type} (s : Session σ), s.pace = pace →
      s.settings = settings → spend s =
        Attempt.within machine (fun s machine => { s with machine }) Machine.step
          { s with pace := next, journal := s.machine.noteStep s.journal } := by
  cases minus : pace.owed.minus settings.cyclePeriod with
  | error failure =>
    refine .inl ⟨failure, ?_⟩
    rintro σ s rfl rfl
    rw [spend, Attempt.get_bind, minus]
    rfl
  | ok owed =>
    refine .inr ⟨{ pace with owed }, rfl, ?_⟩
    rintro σ s rfl rfl
    rw [spend, Attempt.get_bind, minus]
    rfl

end Session

/-! ### Hosts that answer the same -/

variable {σ τ : Type}

def Session.onto (f : σ → τ) (s : Session σ) : Session τ :=
  { s with outside := f s.outside }

@[simp] theorem Session.onto_failure (f : σ → τ) (s : Session σ) :
    (s.onto f).failure = s.failure := rfl

@[simp] theorem Session.onto_pace (f : σ → τ) (s : Session σ) : (s.onto f).pace = s.pace := rfl

theorem Session.spend_onto (f : σ → τ) (s : Session σ) :
    (∃ failure left, s.spend = .error failure left ∧
      (s.onto f).spend = .error failure (left.onto f)) ∨
    ∃ answer left, s.spend = .ok answer left ∧ (s.onto f).spend = .ok answer (left.onto f) := by
  rcases spend_outcome s.pace s.settings with ⟨failure, fails⟩ | ⟨next, _, steps⟩
  · exact .inl ⟨failure, s, fails s rfl rfl, fails (s.onto f) rfl rfl⟩
  · rw [steps s rfl rfl, steps (s.onto f) rfl rfl]
    cases stepped : s.machine.step with
    | error failure machine =>
      exact .inl ⟨failure, _, Attempt.within_of_error stepped, Attempt.within_of_error stepped⟩
    | ok answer machine =>
      exact .inr ⟨answer, _, Attempt.within_of_ok stepped, Attempt.within_of_ok stepped⟩

/-- To the sessions, `g` answers the same as `h`, though it keeps more in mind. -/
structure Host.Projects (f : σ → τ) (g : Host σ) (h : Host τ) : Prop where
  clock : ∀ outside, h.clock (f outside) = ((g.clock outside).1, f (g.clock outside).2)
  react : ∀ call s, h.react call (s.onto f) = (g.react call s).onto f
  hasBuzzer : h.hasBuzzer = g.hasBuzzer

namespace Host.Projects

open Session

variable {f : σ → τ} {g : Host σ} {h : Host τ}

theorem now (same : g.Projects f h) (s : Session σ) :
    (s.onto f).now h = ((s.now g).1, (s.now g).2.onto f) := by
  simp only [Session.now, onto, same.clock]

theorem start (same : g.Projects f h) (s : Session σ) :
    (s.onto f).start h = (s.start g).onto f := by
  simp only [Session.start, same.now]
  rcases s.now g with ⟨_ | t, read⟩ <;> rfl

theorem started (same : g.Projects f h) (s : Session σ) :
    (s.onto f).started h = (s.started g).onto f := by
  unfold Session.started
  rw [apply_ite (onto f), same.start]
  rfl

theorem andThen {next : Session σ → Session σ} {next' : Session τ → Session τ} (s : Session σ)
    (alike : ∀ s, next' (s.onto f) = (next s).onto f) :
    (s.onto f).andThen next' = (s.andThen next).onto f := by
  unfold Session.andThen
  rw [apply_ite (onto f), alike]
  rfl

theorem accrue (s : Session σ) (t : Value) :
    (s.onto f).accrue t = (s.accrue t).map (onto f) := by
  rcases accrue_outcome s.pace s.settings t with ⟨failure, fails⟩ | ⟨next, _, accrues⟩
  · rw [fails s rfl rfl, fails (s.onto f) rfl rfl]
    rfl
  · rw [accrues s rfl rfl, accrues (s.onto f) rfl rfl]
    rfl

theorem burst (same : g.Projects f h) (fuel : Nat) (s : Session σ) :
    burst h fuel (s.onto f) = (burst g fuel s).map id (onto f) := by
  induction fuel generalizing s with
  | zero => rfl
  | succ fuel ih =>
    unfold Session.burst
    rw [apply_ite (Prod.map id (onto f))]
    refine ite_congr rfl (fun _ => ?_) fun _ => rfl
    rcases s.spend_onto f with ⟨failure, left, here, there⟩ | ⟨answer, left, here, there⟩
    · rw [here, there]
      rfl
    · rw [here, there]
      cases answer with
      | some fault => rfl
      | none =>
        simp only
        rw [show (left.onto f).countCycle = left.countCycle.onto f from rfl, same.react]
        cases broken : (g.react .poll left.countCycle).failure with
        | some failure => simp only [onto_failure, broken]; rfl
        | none => simp only [onto_failure, broken]; exact ih _

theorem frame (same : g.Projects f h) (s : Session σ) :
    frame h (s.onto f) = (frame g s).onto f := by
  have counts (s : Session σ) : (s.onto f).countFrame = s.countFrame.onto f := rfl
  unfold Session.frame
  rw [← andThen _ counts, ← andThen _ (same.react .render), apply_ite (onto f), ← same.react]
  simp only [same.hasBuzzer]
  rfl

theorem frameIfDue (same : g.Projects f h) (s : Session σ) (t : Value) :
    (s.onto f).frameIfDue h t = (s.frameIfDue g t).onto f := by
  rcases frameIfDue_outcome s.pace s.settings t with
    ⟨next, failure, breaks⟩ | ⟨_, idle⟩ | ⟨next, _, shows⟩
  · rw [breaks g s rfl rfl, breaks h (s.onto f) rfl rfl]
    rfl
  · rw [idle g s rfl rfl, idle h (s.onto f) rfl rfl]
  · rw [shows g s rfl rfl, shows h (s.onto f) rfl rfl]
    exact same.frame { s with pace := next }

theorem publish (t : Value) (s : Session σ) : (s.onto f).publish t = (s.publish t).onto f := by
  obtain ⟨next, failure, _, _, publishes⟩ := publish_outcome s.pace t
  rw [publishes s rfl, publishes (s.onto f) rfl]
  rfl

theorem concluded (s : Session σ) : (s.onto f).concluded = s.concluded.map id (onto f) := by
  unfold Session.concluded
  cases broken : s.failure with
  | some failure => simp only [onto_failure, broken]; rfl
  | none => simp only [onto_failure, broken]; rfl

theorem tickAt (same : g.Projects f h) (patience : Nat) (t : Value) (s : Session σ) :
    (s.onto f).tickAt h patience t = (s.tickAt g patience t).map id (onto f) := by
  unfold Session.tickAt
  rw [accrue]
  cases s.accrue t with
  | error failure => rfl
  | ok grown =>
    simp only [Except.map, onto_pace, same.burst]
    rcases Session.burst g _ grown with ⟨_ | _ | _ | _, left⟩
    · have shown := same.frameIfDue left t
      have published := andThen (Session.frameIfDue g left t) (publish (f := f) t)
      rw [← shown] at published
      exact (congrArg Session.concluded published).trans (concluded _)
    · rfl
    · rfl
    · rfl

theorem tick (same : g.Projects f h) (patience : Nat) (s : Session σ) :
    (s.onto f).tick h patience = (s.tick g patience).map id (onto f) := by
  unfold Session.tick
  rw [same.started]
  cases broken : (s.started g).failure with
  | some failure => simp only [onto_failure, broken]; rfl
  | none =>
    simp only [onto_failure, broken, same.now]
    rcases (s.started g).now g with ⟨_ | t, read⟩
    · rfl
    · exact same.tickAt patience t read

theorem rest (same : g.Projects f h) (s : Session σ) :
    (s.onto f).rest h = (s.rest g).map id (onto f) := by
  unfold Session.rest
  rw [show (s.onto f).settings = s.settings from rfl, same.react]
  cases broken : (g.react (.sleep s.settings.idleSleep) s).failure with
  | some failure => simp only [onto_failure, broken]; rfl
  | none => simp only [onto_failure, broken]; rfl

theorem round (same : g.Projects f h) (patience : Nat) (s : Session σ) :
    (s.onto f).round h patience = (s.round g patience).map id (onto f) := by
  unfold Session.round
  rw [apply_ite (Prod.map id (onto f)), same.tick]
  refine ite_congr rfl (fun _ => rfl) fun _ => ?_
  rcases s.tick g patience with ⟨_ | _ | _ | _, left⟩
  · exact same.rest left
  · rfl
  · rfl
  · rfl

theorem rounds (same : g.Projects f h) (patience limit : Nat) (s : Session σ) :
    rounds h patience limit (s.onto f) = (rounds g patience limit s).map id (onto f) := by
  induction limit generalizing s with
  | zero => rfl
  | succ limit ih =>
    unfold Session.rounds
    rw [same.round]
    rcases s.round g patience with ⟨_ | ending, left⟩
    · exact ih left
    · rfl

theorem run (same : g.Projects f h) (patience limit : Nat) (s : Session σ) :
    (s.onto f).run h patience limit = (s.run g patience limit).map id (onto f) := by
  have opens : (s.onto f).opened h = (s.opened g).onto f := by
    unfold Session.opened
    rw [same.react, andThen _ same.start]
  unfold Session.run
  rw [opens]
  cases broken : (s.opened g).failure with
  | some failure => simp only [onto_failure, broken]; rfl
  | none => simp only [onto_failure, broken]; exact same.rounds patience limit _

end Host.Projects

/-! ### Watching -/

/-- A call that was made, the machine and the pace that it found and the machine that it left. -/
structure Entry where
  call : Call
  found : Machine
  pace : Pace
  left : Machine
  cancelled : Bool

def Host.watched (h : Host σ) : Host (σ × List Entry) where
  clock outside := ((h.clock outside.1).1, (h.clock outside.1).2, outside.2)
  react call s :=
    let after := h.react call (s.onto Prod.fst)
    let entry : Entry := ⟨call, s.machine, s.pace, after.machine, after.cancelled⟩
    after.onto fun outside => (outside, s.outside.2 ++ [entry])
  hasBuzzer := h.hasBuzzer

theorem Host.watched_projects (h : Host σ) : h.watched.Projects Prod.fst h where
  clock _ := rfl
  react _ _ := rfl
  hasBuzzer := rfl

end ChipEight
