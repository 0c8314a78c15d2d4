import ChipEight.Proofs.Latching
import ChipEight.Proofs.Pacing
import ChipEight.Proofs.Watching

/-!
The calls of a run follow one protocol: the picture is cleared, and then come rounds, each with a
poll after every instruction, at most one frame, and a sleep.
-/

namespace ChipEight

/-! ### Protocols -/

inductive Polling : Machine → List Entry → Machine → Prop
  | done (m : Machine) : Polling m [] m
  | poll {m last : Machine} {entry : Entry} {later : List Entry}
      (stepped : m.step = .ok none entry.found) (call : entry.call = .poll)
      (rest : Polling entry.left later last) : Polling m (entry :: later) last

/-- At most one frame: when the timers have counted down the buzzer sounds, if there is one and the
sound timer still runs, and then the picture is shown. -/
inductive Framing (buzzer : Bool) (m : Machine) : List Entry → Machine → Prop
  | skipped : Framing buzzer m [] m
  | silent {picture : Entry} (quiet : ¬ (0 < m.timers.tick.sound ∧ buzzer))
      (call : picture.call = .render) (found : picture.found = { m with timers := m.timers.tick }) :
      Framing buzzer m [picture] picture.left
  | sounding {sound picture : Entry} (loud : 0 < m.timers.tick.sound ∧ buzzer)
      (call : sound.call = .beep) (found : sound.found = { m with timers := m.timers.tick })
      (shown : picture.call = .render) (next : picture.found = sound.left) :
      Framing buzzer m [sound, picture] picture.left

/-- At most so many rounds, from the machine and whether the session is cancelled at first. Before
the sleep there is no time left for an instruction, and no frame due that was not shown. Rounds may
only be given up, within a tick, where times are inexact. -/
inductive Rounds (exact : Prop) (buzzer : Bool) (settings : Settings) :
    Nat → Bool → Machine → List Entry → RunEnd → Machine → Prop
  | unfinished {cancelled : Bool} {m : Machine} :
      Rounds exact buzzer settings 0 cancelled m [] .unfinished m
  | cancelled {limit : Nat} {m : Machine} :
      Rounds exact buzzer settings (limit + 1) true m [] .cancelled m
  | round {limit : Nat} {m worked shown last : Machine} {polls frame later : List Entry}
      {sleep : Entry} {ending : RunEnd}
      (polling : Polling m polls worked) (framing : Framing buzzer worked frame shown)
      (spent : ¬ settings.cyclePeriod ≤ sleep.pace.owed)
      (undue : frame = [] → ¬ sleep.pace.FrameDue settings.framePeriod)
      (call : sleep.call = .sleep settings.idleSleep) (found : sleep.found = shown)
      (heeded : ∀ entry ∈ polls ++ frame, entry.cancelled → sleep.cancelled)
      (rest : Rounds exact buzzer settings limit sleep.cancelled sleep.left later ending last) :
      Rounds exact buzzer settings (limit + 1) false m (polls ++ frame ++ sleep :: later) ending last
  | fault {limit : Nat} {m worked last : Machine} {polls : List Entry} {fault : Fault}
      (polling : Polling m polls worked) (stopped : worked.step = .ok (some fault) last)
      (latched : last.fault = some fault) :
      Rounds exact buzzer settings (limit + 1) false m polls (.fault fault) last
  | givenUp {limit : Nat} {m worked last : Machine} {polls frame : List Entry} {ending : RunEnd}
      (inexact : ¬ exact) (polling : Polling m polls worked)
      (framing : Framing buzzer worked frame last)
      (midway : ending = .unfinished ∨ ∃ failure, ending = .broken failure) :
      Rounds exact buzzer settings (limit + 1) false m (polls ++ frame) ending last

inductive Protocol (exact : Prop) (buzzer : Bool) (settings : Settings) (limit : Nat)
    (cancelled : Bool) (m : Machine) : List Entry → RunEnd → Machine → Prop
  | opened {opening : Entry} {later : List Entry} {ending : RunEnd} {last : Machine}
      (call : opening.call = .clear) (found : opening.found = m)
      (heeded : cancelled → opening.cancelled)
      (rounds : Rounds exact buzzer settings limit opening.cancelled opening.left later ending last) :
      Protocol exact buzzer settings limit cancelled m (opening :: later) ending last
  | unstarted {opening : Entry} {failure : Failure} (inexact : ¬ exact)
      (call : opening.call = .clear) (found : opening.found = m) :
      Protocol exact buzzer settings limit cancelled m [opening] (.broken failure) opening.left

/-! ### Hosts -/

/-- A session may have been cancelled meanwhile, but this was not taken back, the run was not
interrupted, and nothing else disturbed it. -/
structure Session.Attended {σ : Type} (I : Machine → σ → Prop) (s t : Session σ) : Prop
    extends Undisturbed I s t where
  heeded : s.cancelled → t.cancelled
  uninterrupted : s.interrupted = false → t.interrupted = false

theorem Session.Attended.refl {σ : Type} {I : Machine → σ → Prop} (s : Session σ) :
    s.Attended I s :=
  ⟨.refl s, id, id⟩

theorem Session.Attended.trans {σ : Type} {I : Machine → σ → Prop} {s t u : Session σ}
    (first : s.Attended I t) (rest : t.Attended I u) : s.Attended I u where
  toUndisturbed := first.toUndisturbed.trans rest.toUndisturbed
  heeded := rest.heeded ∘ first.heeded
  uninterrupted := rest.uninterrupted ∘ first.uninterrupted

structure Host.Attentive {σ : Type} (h : Host σ) (I : Machine → σ → Prop) : Prop where
  invariant : Machine.Invariant I
  react : ∀ call (s : Session σ), s.failure = none → I s.machine s.outside →
    s.Attended I (h.react call s)

/-- The host is attentive as long as the clock is read no more often than a property tells. -/
structure Host.Attends {σ : Type} (h : Host σ) (I : Nat → Machine → σ → Prop) : Prop where
  attentive : ∀ n, h.Attentive (I n)
  clock : ∀ {n m outside}, I (n + 1) m outside → I n m (h.clock outside).2
  fewer : ∀ {n m outside}, I (n + 1) m outside → I n m outside

/-- The clock counts whole nanoseconds, and the periods are whole and take time. -/
structure Host.Exact {σ : Type} (h : Host σ) (I : Nat → Machine → σ → Prop) (settings : Settings) :
    Prop where
  clock : ∀ {n m outside}, I (n + 1) m outside →
    ∃ t : Int, (h.clock outside).1 = .ok (.whole t)
  cycle : ∃ cycle : Int, 0 < cycle ∧ settings.cyclePeriod = .whole cycle
  frame : ∃ frame : Int, settings.framePeriod = .whole frame

variable {σ : Type} {h : Host σ} {I : Machine → σ → Prop}

abbrev Watching (I : Machine → σ → Prop) (m : Machine) (outside : σ × List Entry) : Prop :=
  I m outside.1

theorem Machine.Invariant.watching (invariant : Machine.Invariant I) :
    Machine.Invariant (Watching I) where
  range := invariant.range
  step := invariant.step
  countDown := invariant.countDown

theorem Host.Steady.watched (steady : h.Steady I) : h.watched.Steady (Watching I) := by
  intro call s unbroken holds
  have quiet := steady call (s.onto Prod.fst) unbroken holds
  exact ⟨quiet.settings, quiet.pace, quiet.failure, quiet.executed, quiet.holds⟩

theorem Host.Attentive.steady (attentive : h.Attentive I) : h.Steady I := fun call s going holds =>
  (attentive.react call s going holds).toUndisturbed

theorem Host.Attentive.watched (attentive : h.Attentive I) :
    h.watched.Attentive (Watching I) where
  invariant := attentive.invariant.watching
  react call s going holds :=
    have attended := attentive.react call (s.onto Prod.fst) going holds
    { attentive.steady.watched call s going holds with
      heeded := attended.heeded
      uninterrupted := attended.uninterrupted }

namespace Session

variable {s t u : Session (σ × List Entry)} {calls more : List Entry}

/-! ### Stretches of a run -/

structure Leads (s t : Session (σ × List Entry)) (calls : List Entry) : Prop where
  log : t.outside.2 = s.outside.2 ++ calls
  settings : t.settings = s.settings
  uninterrupted : s.interrupted = false → t.interrupted = false
  heeded : s.cancelled → t.cancelled
  heard : ∀ entry ∈ calls, entry.cancelled → t.cancelled

namespace Leads

theorem quiet (log : t.outside.2 = s.outside.2) (settings : t.settings = s.settings)
    (interrupted : t.interrupted = s.interrupted) (cancelled : t.cancelled = s.cancelled) :
    Leads s t [] where
  log := by rw [log, List.append_nil]
  settings := settings
  uninterrupted := by rw [interrupted]; exact id
  heeded := by rw [cancelled]; exact id
  heard _ member := by cases member

theorem trans (first : Leads s t calls) (second : Leads t u more) : Leads s u (calls ++ more) where
  log := by rw [second.log, first.log, List.append_assoc]
  settings := second.settings.trans first.settings
  uninterrupted := second.uninterrupted ∘ first.uninterrupted
  heeded := second.heeded ∘ first.heeded
  heard entry member cancelled := by
    rcases List.mem_append.mp member with early | late
    · exact second.heeded (first.heard entry early cancelled)
    · exact second.heard entry late cancelled

theorem still (first : Leads s t calls) (log : u.outside.2 = t.outside.2)
    (settings : u.settings = t.settings) (interrupted : u.interrupted = t.interrupted)
    (cancelled : u.cancelled = t.cancelled) : Leads s u calls := by
  have whole := first.trans (quiet log settings interrupted cancelled)
  rwa [List.append_nil] at whole

theorem refl (s : Session (σ × List Entry)) : Leads s s [] := quiet rfl rfl rfl rfl

end Leads

structure Open (s : Session (σ × List Entry)) (I : Machine → σ → Prop) : Prop where
  holds : Watching I s.machine s.outside
  unbroken : s.failure = none

namespace Open

theorem attended (opens : s.Open I) (attentive : h.Attentive I) (call : Call) :
    Attended (Watching I) s (h.watched.react call s) :=
  attentive.watched.react call s opens.unbroken opens.holds

theorem react (opens : s.Open I) (attentive : h.Attentive I) (call : Call) :
    (h.watched.react call s).Open I where
  holds := (opens.attended attentive call).holds opens.holds
  unbroken := (opens.attended attentive call).failure.trans opens.unbroken

theorem leads (opens : s.Open I) (attentive : h.Attentive I) (call : Call) :
    Leads s (h.watched.react call s)
      [⟨call, s.machine, s.pace, (h.watched.react call s).machine,
        (h.watched.react call s).cancelled⟩] where
  log := rfl
  settings := (opens.attended attentive call).settings
  uninterrupted := (opens.attended attentive call).uninterrupted
  heeded := (opens.attended attentive call).heeded
  heard entry member cancelled := by
    rw [List.mem_singleton.mp member] at cancelled
    exact cancelled

end Open

/-- How a part of a tick comes out: with the calls of the whole part, with polls and a fault, or with
some of its calls. -/
inductive Outcome (I : Machine → σ → Prop) (s : Session (σ × List Entry))
    (whole : List Entry → Session (σ × List Entry) → Prop)
    (part : List Entry → Machine → Prop) : TickEnd × Session (σ × List Entry) → Prop
  | finished {t : Session (σ × List Entry)} {calls : List Entry} (leads : Leads s t calls)
      (calling : whole calls t) (opens : t.Open I) : Outcome I s whole part (.finished, t)
  | fault {t : Session (σ × List Entry)} {polls : List Entry} {worked : Machine} {fault : Fault}
      (leads : Leads s t polls) (polling : Polling s.machine polls worked)
      (stopped : worked.step = .ok (some fault) t.machine) : Outcome I s whole part (.fault fault, t)
  | broken {t : Session (σ × List Entry)} {calls : List Entry} {failure : Failure}
      (leads : Leads s t calls) (calling : part calls t.machine) :
      Outcome I s whole part (.broken failure, t)
  | unfinished {t : Session (σ × List Entry)} {calls : List Entry} (leads : Leads s t calls)
      (calling : part calls t.machine) : Outcome I s whole part (.unfinished, t)

theorem Outcome.quiet {whole : List Entry → Session (σ × List Entry) → Prop}
    {part : List Entry → Machine → Prop} {outcome : TickEnd × Session (σ × List Entry)}
    (first : Leads s t []) (same : t.machine = s.machine) (rest : Outcome I t whole part outcome) :
    Outcome I s whole part outcome := by
  cases rest with
  | finished leads calling opens => exact .finished (first.trans leads) calling opens
  | fault leads polling stopped => exact .fault (first.trans leads) (same ▸ polling) stopped
  | broken leads calling => exact .broken (first.trans leads) calling
  | unfinished leads calling => exact .unfinished (first.trans leads) calling

/-! ### Bursts -/

structure Spent (m : Machine) (marks : Option Marks) (calls : List Entry)
    (t : Session (σ × List Entry)) : Prop where
  polling : Polling m calls t.machine
  short : ¬ t.settings.cyclePeriod ≤ t.pace.owed
  marks : t.pace.marks = marks

theorem spend_outcome_of_range (range : s.machine.InRange) :
    (∃ failure, spend s = .error failure s) ∨
    ∃ answer t, spend s = .ok answer t ∧ s.machine.step = .ok answer t.machine ∧
      t.outside = s.outside ∧ t.failure = s.failure ∧ t.pace.marks = s.pace.marks ∧
      Leads s t [] := by
  rcases spend_outcome s.pace s.settings with ⟨failure, fails⟩ | ⟨next, marks, steps⟩
  · exact .inl ⟨failure, fails s rfl rfl⟩
  · obtain ⟨answer, machine, stepped, _⟩ := range.step
    exact .inr ⟨answer, _, (steps s rfl rfl).trans (Attempt.within_of_ok stepped), stepped, rfl,
      rfl, marks, .quiet rfl rfl rfl rfl⟩

theorem Outcome.poll {marks : Option Marks} {outcome : TickEnd × Session (σ × List Entry)}
    {entry : Entry} (leads : Leads s t [entry]) (stepped : s.machine.step = .ok none entry.found)
    (call : entry.call = .poll) (left : entry.left = t.machine)
    (rest : Outcome I t (Spent t.machine marks) (Polling t.machine) outcome) :
    Outcome I s (Spent s.machine marks) (Polling s.machine) outcome := by
  have polled {polls : List Entry} {last : Machine} (polling : Polling t.machine polls last) :
      Polling s.machine ([entry] ++ polls) last :=
    .poll stepped call (left ▸ polling)
  cases rest with
  | finished more spent opens =>
    exact .finished (leads.trans more) { spent with polling := polled spent.polling } opens
  | fault more polling stopped => exact .fault (leads.trans more) (polled polling) stopped
  | broken more polling => exact .broken (leads.trans more) (polled polling)
  | unfinished more polling => exact .unfinished (leads.trans more) (polled polling)

theorem burst_outcome (attentive : h.Attentive I) (opens : s.Open I) (fuel : Nat) :
    Outcome I s (Spent s.machine s.pace.marks) (Polling s.machine) (burst h.watched fuel s) := by
  -- a turn of the loop is an instruction and the poll after it, with no look at the cancellation
  induction fuel generalizing s with
  | zero =>
    unfold burst
    split
    · exact .unfinished (.refl s) (.done _)
    · rename_i short
      exact .finished (.refl s) ⟨.done _, short, rfl⟩ opens
  | succ fuel ih =>
    unfold burst
    split
    · have range := attentive.invariant.range opens.holds
      rcases spend_outcome_of_range range with
        ⟨failure, spent⟩ | ⟨answer, t, spent, stepped, outside, unbroken, marks, leads⟩
      · rw [spent]
        exact .broken (.refl s) (.done _)
      · rw [spent]
        cases answer with
        | some fault => exact .fault leads (.done _) stepped
        | none =>
          have holds : Watching I t.machine t.outside := by
            rw [outside]
            exact attentive.invariant.step opens.holds stepped
          have counted : t.countCycle.Open I := ⟨holds, unbroken.trans opens.unbroken⟩
          have polled := counted.react attentive .poll
          have counts : Leads s t.countCycle [] := leads.still rfl rfl rfl rfl
          have kept := congrArg Pace.marks (counted.attended attentive .poll).pace
          simp only [polled.unbroken]
          rw [← marks, show t.pace.marks = _ from kept.symm]
          exact .poll (counts.trans (counted.leads attentive .poll)) stepped rfl rfl (ih polled)
    · rename_i short
      exact .finished (.refl s) ⟨.done _, short, rfl⟩ opens

/-! ### Frames -/

theorem frame_leads (attentive : h.Attentive I) (opens : s.Open I) :
    ∃ calls, calls ≠ [] ∧ Leads s (frame h.watched s) calls ∧
      Framing h.hasBuzzer s.machine calls (frame h.watched s).machine ∧
      (frame h.watched s).Open I ∧ (frame h.watched s).pace.owed = s.pace.owed := by
  have counted : s.countedDown.Open I :=
    ⟨attentive.invariant.countDown opens.holds, opens.unbroken⟩
  have down : Leads s s.countedDown [] := .quiet rfl rfl rfl rfl
  have kept {t : Session (σ × List Entry)} (opens : t.Open I) (call : Call) :
      (h.watched.react call t).pace.owed = t.pace.owed :=
    congrArg Pace.owed (opens.attended attentive call).pace
  rw [frame_of_unbroken attentive.watched.invariant attentive.watched.steady opens.unbroken
    opens.holds]
  unfold sounded
  split
  · rename_i loud
    have heard := counted.react attentive .beep
    have calls := (down.trans (counted.leads attentive .beep)).trans (heard.leads attentive .render)
    have shown := heard.react attentive .render
    exact ⟨_, by simp, calls.still rfl rfl rfl rfl, .sounding loud rfl rfl rfl rfl,
      ⟨shown.holds, shown.unbroken⟩, (kept heard _).trans (kept counted _)⟩
  · rename_i quiet
    have calls := down.trans (counted.leads attentive .render)
    have shown := counted.react attentive .render
    exact ⟨_, by simp, calls.still rfl rfl rfl rfl, .silent quiet rfl rfl,
      ⟨shown.holds, shown.unbroken⟩, kept counted _⟩

theorem frameIfDue_leads (attentive : h.Attentive I) (opens : s.Open I) {t : Value}
    (reading : ∀ marks ∈ s.pace.marks, marks.lastTick = t) :
    ∃ calls, Leads s (s.frameIfDue h.watched t) calls ∧
      Framing h.hasBuzzer s.machine calls (s.frameIfDue h.watched t).machine ∧
      Watching I (s.frameIfDue h.watched t).machine (s.frameIfDue h.watched t).outside ∧
      ((s.frameIfDue h.watched t).failure = none →
        (s.frameIfDue h.watched t).pace.owed = s.pace.owed ∧
        (calls = [] → ¬ (s.frameIfDue h.watched t).pace.FrameDue s.settings.framePeriod)) := by
  rcases frameIfDue_outcome s.pace s.settings t with
    ⟨next, failure, breaks⟩ | ⟨undue, idle⟩ | ⟨next, owed, shows⟩
  · rw [breaks h.watched s rfl rfl]
    refine ⟨[], .quiet rfl rfl rfl rfl, .skipped, opens.holds, ?_⟩
    rintro ⟨⟩
  · rw [idle h.watched s rfl rfl]
    exact ⟨[], .refl s, .skipped, opens.holds, fun _ => ⟨rfl, fun _ => undue reading⟩⟩
  · rw [shows h.watched s rfl rfl]
    have due : Open { s with pace := next } I := ⟨opens.holds, opens.unbroken⟩
    obtain ⟨calls, some, leads, framing, shown, kept⟩ := frame_leads attentive due
    have first : Leads s { s with pace := next } [] := .quiet rfl rfl rfl rfl
    exact ⟨_, first.trans leads, framing, shown.holds,
      fun _ => ⟨kept.trans owed, fun none => absurd none some⟩⟩

/-! ### Ticks -/

def Turn (buzzer : Bool) (m : Machine) (calls : List Entry) (last : Machine) : Prop :=
  ∃ polls worked frame, calls = polls ++ frame ∧ Polling m polls worked ∧
    Framing buzzer worked frame last

theorem Turn.of_polling {buzzer : Bool} {m last : Machine} {polls : List Entry}
    (polling : Polling m polls last) : Turn buzzer m polls last :=
  ⟨polls, last, [], (List.append_nil polls).symm, polling, .skipped⟩

def WholeTurn (buzzer : Bool) (m : Machine) (calls : List Entry) (t : Session (σ × List Entry)) :
    Prop :=
  ∃ polls worked frame, calls = polls ++ frame ∧ Polling m polls worked ∧
    Framing buzzer worked frame t.machine ∧ ¬ t.settings.cyclePeriod ≤ t.pace.owed ∧
    (frame = [] → ¬ t.pace.FrameDue t.settings.framePeriod)

theorem concluded_outcome {buzzer : Bool} {polls frame : List Entry} {m worked : Machine}
    (leads : Leads s t (polls ++ frame)) (polling : Polling m polls worked)
    (framing : Framing buzzer worked frame t.machine) (holds : Watching I t.machine t.outside)
    (settled : t.failure = none → ¬ t.settings.cyclePeriod ≤ t.pace.owed ∧
      (frame = [] → ¬ t.pace.FrameDue t.settings.framePeriod)) (reading : Value) :
    Outcome I s (WholeTurn buzzer m) (Turn buzzer m) (t.andThen (publish reading)).concluded := by
  cases broken : t.failure with
  | some failure =>
    simp only [andThen, concluded, broken, Option.isSome_some, if_true]
    exact .broken (t := t.mended) (leads.still rfl rfl rfl rfl) ⟨_, _, _, rfl, polling, framing⟩
  | none =>
    obtain ⟨short, undue⟩ := settled broken
    obtain ⟨next, failure, owed, due, publishes⟩ := publish_outcome t.pace reading
    rw [andThen_of_unbroken broken, publishes t rfl, broken, Option.or_none]
    unfold concluded
    cases failure with
    | some failure =>
      exact .broken (t := mended _) (leads.still rfl rfl rfl rfl) ⟨_, _, _, rfl, polling, framing⟩
    | none =>
      refine .finished (leads.still rfl rfl rfl rfl) ?_ ⟨holds, rfl⟩
      exact ⟨polls, worked, frame, rfl, polling, framing, owed ▸ short,
        fun none again => undue none (due _ again)⟩

theorem tickAt_outcome (attentive : h.Attentive I) (opens : s.Open I) (patience : Nat) (t : Value) :
    Outcome I s (WholeTurn h.hasBuzzer s.machine) (Turn h.hasBuzzer s.machine)
      (s.tickAt h.watched patience t) := by
  unfold tickAt
  rcases accrue_outcome s.pace s.settings t with ⟨failure, fails⟩ | ⟨next, reading, accrues⟩
  · rw [fails s rfl rfl]
    exact .broken (.refl s) (.of_polling (.done _))
  · rw [accrues s rfl rfl]
    refine .quiet (t := { s with pace := next }) (.quiet rfl rfl rfl rfl) rfl ?_
    have grown : Open { s with pace := next } I := ⟨opens.holds, opens.unbroken⟩
    have worked := burst_outcome attentive grown (next.owed.truncate.toNat + patience)
    simp only
    generalize burst h.watched _ { s with pace := next } = result at worked
    cases worked with
    | fault leads polling stopped => exact .fault leads polling stopped
    | broken leads polling => exact .broken leads (.of_polling polling)
    | unfinished leads polling => exact .unfinished leads (.of_polling polling)
    | @finished done polls leads spent opens =>
      obtain ⟨frame, shows, framing, holds, settled⟩ :=
        frameIfDue_leads attentive opens (t := t) (by rw [spent.marks]; exact reading)
      refine concluded_outcome (leads.trans shows) spent.polling framing holds ?_ t
      intro unbroken
      obtain ⟨owed, undue⟩ := settled unbroken
      rw [owed, shows.settings]
      exact ⟨spent.short, undue⟩

theorem now_leads (s : Session (σ × List Entry)) :
    Leads s (s.now h.watched).2 [] ∧ (s.now h.watched).2.machine = s.machine ∧
      (s.now h.watched).2.failure = s.failure ∧ (s.now h.watched).2.cancelled = s.cancelled :=
  ⟨.quiet rfl rfl rfl rfl, rfl, rfl, rfl⟩

theorem start_leads (s : Session (σ × List Entry)) :
    Leads s (s.start h.watched) [] ∧ (s.start h.watched).machine = s.machine ∧
      (s.start h.watched).cancelled = s.cancelled := by
  have reads := now_leads (h := h) s
  unfold start
  generalize s.now h.watched = reading at reads ⊢
  obtain ⟨leads, machine, _, cancelled⟩ := reads
  rcases reading with ⟨_ | t, read⟩
  · exact ⟨leads.still rfl rfl rfl rfl, machine, cancelled⟩
  · exact ⟨leads.still rfl rfl rfl rfl, machine, cancelled⟩

theorem started_leads (s : Session (σ × List Entry)) :
    Leads s (s.started h.watched) [] ∧ (s.started h.watched).machine = s.machine := by
  unfold started
  split
  · obtain ⟨leads, machine, _⟩ := start_leads (h := h) s
    exact ⟨leads, machine⟩
  · exact ⟨.refl s, rfl⟩

section

variable {I : Nat → Machine → σ → Prop} {n : Nat}

theorem start_outside (s : Session (σ × List Entry)) :
    (s.start h.watched).outside = (h.watched.clock s.outside).2 := by
  unfold start
  rcases reading : s.now h.watched with ⟨_ | t, read⟩
  · exact (congrArg (·.2.outside) reading).symm
  · exact (congrArg (·.2.outside) reading).symm

theorem started_holds (attends : h.Attends I) (holds : Watching (I (n + 1)) s.machine s.outside) :
    Watching (I n) s.machine (s.started h.watched).outside := by
  unfold started
  split
  · rw [start_outside]
    exact attends.clock holds
  · exact attends.fewer holds

theorem tick_outcome (attends : h.Attends I) (opens : s.Open (I (n + 2))) (patience : Nat) :
    Outcome (I n) s (WholeTurn h.hasBuzzer s.machine) (Turn h.hasBuzzer s.machine)
      (s.tick h.watched patience) := by
  obtain ⟨first, same⟩ := started_leads (h := h) s
  have holds := started_holds attends opens.holds
  unfold tick
  rw [← same] at holds ⊢
  refine .quiet first same ?_
  cases broken : (s.started h.watched).failure with
  | some failure =>
    simp only [broken]
    exact .broken (t := mended _) (.quiet rfl rfl rfl rfl) (.of_polling (.done _))
  | none =>
    have reads := now_leads (h := h) (s.started h.watched)
    have told : Watching (I n) (s.started h.watched).machine
        ((s.started h.watched).now h.watched).2.outside := attends.clock holds
    simp only [broken]
    generalize (s.started h.watched).now h.watched = reading at reads told ⊢
    obtain ⟨leads, machine, unbroken, _⟩ := reads
    rw [← machine] at told ⊢
    rcases reading with ⟨_ | t, read⟩
    · exact .broken leads (.of_polling (.done _))
    · exact .quiet leads machine
        (tickAt_outcome (attends.attentive n) ⟨told, unbroken.trans broken⟩ patience t)

/-! ### Whole times -/

def Timely (s : Session (σ × List Entry)) (I : Machine → σ → Prop) : Prop :=
  ∃ cycle frame l, 0 < cycle ∧ s.Paced (Watching I) cycle frame l

theorem Timely.undisturbed {I : Machine → σ → Prop} (timely : s.Timely I)
    (quiet : Undisturbed (Watching I) s t) : t.Timely I := by
  obtain ⟨cycle, frame, l, positive, paced⟩ := timely
  exact ⟨cycle, frame, l, positive, paced.undisturbed quiet⟩

theorem exists_reads {settings : Settings} (exact : h.Exact I settings) (attends : h.Attends I)
    (holds : Watching (I (n + 1)) s.machine s.outside) :
    ∃ t, s.Reads h.watched (Watching (I n)) t := by
  obtain ⟨t, shows⟩ := exact.clock holds
  exact ⟨t, shows, fun _ => attends.clock holds⟩

theorem start_of_exact (exact : h.Exact I s.settings) (attends : h.Attends I)
    (opens : s.Open (I (n + 1))) : (s.start h.watched).Timely (I n) := by
  obtain ⟨cycle, positive, cycles⟩ := exact.cycle
  obtain ⟨frame, frames⟩ := exact.frame
  obtain ⟨t, reads⟩ := exists_reads exact attends opens.holds
  exact ⟨cycle, frame, _, positive,
    start_of_periods cycles frames opens.unbroken (attends.fewer opens.holds) reads⟩

theorem tick_of_timely {settings : Settings} (exact : h.Exact I settings) (attends : h.Attends I)
    (timely : s.Timely (I (n + 2))) (patience : Nat) :
    (∃ fault, (s.tick h.watched patience).1 = .fault fault) ∨
      (s.tick h.watched patience).1 = .finished ∧
        (s.tick h.watched patience).2.Timely (I n) := by
  obtain ⟨cycle, frame, l, positive, paced⟩ := timely
  have attentive := (attends.attentive n).watched
  have once := attends.fewer paced.holds
  obtain ⟨t, reads⟩ := exists_reads exact attends once
  rcases tick_finishes attentive.invariant attentive.steady positive
    { paced with holds := attends.fewer once } reads patience with
    ⟨fault, _, _, _, ended, _⟩ | ⟨after, l, finished, paced⟩
  · exact .inl ⟨fault, ended⟩
  · rw [finished]
    exact .inr ⟨rfl, cycle, frame, l, positive, paced⟩

/-! ### Rounds -/

theorem rest_leads {I : Machine → σ → Prop} (attentive : h.Attentive I) (opens : s.Open I)
    (uninterrupted : s.interrupted = false) :
    ∃ (t : Session (σ × List Entry)) (sleep : Entry), s.rest h.watched = (none, t) ∧
      Leads s t [sleep] ∧ Undisturbed (Watching I) s t ∧ t.Open I ∧
      sleep.call = .sleep s.settings.idleSleep ∧ sleep.found = s.machine ∧ sleep.pace = s.pace ∧
      sleep.left = t.machine ∧ sleep.cancelled = t.cancelled := by
  have slept := opens.react attentive (.sleep s.settings.idleSleep)
  have leads := opens.leads attentive (.sleep s.settings.idleSleep)
  have attended := opens.attended attentive (.sleep s.settings.idleSleep)
  refine ⟨_, _, ?_, leads, attended.toUndisturbed, slept, rfl, rfl, rfl, rfl, rfl⟩
  simp only [rest, slept.unbroken, leads.uninterrupted uninterrupted, Bool.false_eq_true, if_false]

/-- A tick reads the clock at most twice, so rounds go on as long as it may be read so often. -/
theorem rounds_follow {settings : Settings} (attends : h.Attends I) (patience limit : Nat)
    (opens : s.Open (I (2 * limit))) (uninterrupted : s.interrupted = false)
    (rates : s.settings = settings) (timely : h.Exact I settings → s.Timely (I (2 * limit))) :
    ∃ calls, (rounds h.watched patience limit s).2.outside.2 = s.outside.2 ++ calls ∧
      Rounds (h.Exact I settings) h.hasBuzzer settings limit s.cancelled s.machine calls
        (rounds h.watched patience limit s).1 (rounds h.watched patience limit s).2.machine := by
  -- a round begins with the flag that the sleep before it leaves, which no call takes back
  induction limit generalizing s with
  | zero => exact ⟨[], (List.append_nil _).symm, .unfinished⟩
  | succ limit ih =>
    unfold rounds round
    cases cancelled : s.cancelled with
    | true => exact ⟨[], (List.append_nil _).symm, .cancelled⟩
    | false =>
      have outcome := tick_outcome (n := 2 * limit) attends opens patience
      have timing := fun exact =>
        tick_of_timely (n := 2 * limit) exact attends (timely exact) patience
      simp only [Bool.false_eq_true, if_false]
      generalize s.tick h.watched patience = result at outcome timing ⊢
      have inexact : (∀ fault, result.1 ≠ .fault fault) → result.1 ≠ .finished →
          ¬ h.Exact I settings := fun noFault going exact => by
        rcases timing exact with ⟨fault, ended⟩ | ⟨ended, _⟩
        · exact noFault fault ended
        · exact going ended
      cases outcome with
      | @finished t _ leads turn opens =>
        obtain ⟨polls, worked, frame, rfl, polling, framing, short, undue⟩ := turn
        obtain ⟨u, sleep, rests, slept, quiet, opens, call, found, pace, left, flag⟩ :=
          rest_leads (attends.attentive _) opens (leads.uninterrupted uninterrupted)
        have timely : h.Exact I settings → u.Timely (I (2 * limit)) := fun exact => by
          rcases timing exact with ⟨fault, ended⟩ | ⟨_, timely⟩
          · cases ended
          · exact timely.undisturbed quiet
        have whole := leads.trans slept
        obtain ⟨later, log, rest⟩ := ih opens (whole.uninterrupted uninterrupted)
          (whole.settings.trans rates) timely
        rw [← left, ← flag] at rest
        rw [leads.settings, rates] at short undue call
        rw [← pace] at short undue
        simp only [rests]
        refine ⟨polls ++ frame ++ sleep :: later, ?_,
          .round polling framing short undue call found ?_ rest⟩
        · rw [log, whole.log, List.append_assoc, List.append_assoc, List.singleton_append]
        · intro entry member cancelled
          rw [flag]
          exact slept.heeded (leads.heard entry member cancelled)
      | fault leads polling stopped =>
        exact ⟨_, leads.log, .fault polling stopped (Machine.fault_of_step stopped)⟩
      | broken leads turn =>
        obtain ⟨polls, worked, frame, rfl, polling, framing⟩ := turn
        exact ⟨_, leads.log, .givenUp (inexact nofun nofun) polling framing (.inr ⟨_, rfl⟩)⟩
      | unfinished leads turn =>
        obtain ⟨polls, worked, frame, rfl, polling, framing⟩ := turn
        exact ⟨_, leads.log, .givenUp (inexact nofun nofun) polling framing (.inl rfl)⟩

/-! ### Runs -/

theorem protocol_of_open (attends : h.Attends I) {patience limit : Nat}
    (opens : s.Open (I (2 * limit + 1))) (uninterrupted : s.interrupted = false)
    (unseen : s.outside.2 = []) :
    Protocol (h.Exact I s.settings) h.hasBuzzer s.settings limit s.cancelled s.machine
      (s.run h.watched patience limit).2.outside.2 (s.run h.watched patience limit).1
      (s.run h.watched patience limit).2.machine := by
  have cleared := opens.react (attends.attentive _) .clear
  have called := opens.leads (attends.attentive _) .clear
  have opened : s.opened h.watched = (h.watched.react .clear s).start h.watched :=
    andThen_of_unbroken cleared.unbroken _
  have timely : h.Exact I s.settings →
      ((h.watched.react .clear s).start h.watched).Timely (I (2 * limit)) :=
    fun exact => start_of_exact (called.settings ▸ exact) attends cleared
  have holds : Watching (I (2 * limit)) (h.watched.react .clear s).machine
      ((h.watched.react .clear s).start h.watched).outside := by
    rw [start_outside]
    exact attends.clock cleared.holds
  obtain ⟨leads, machine, cancelled⟩ := start_leads (h := h) (h.watched.react .clear s)
  have whole := called.trans leads
  unfold run
  rw [opened]
  generalize (h.watched.react .clear s).start h.watched = started
    at timely holds leads machine cancelled whole ⊢
  have log := whole.log
  rw [unseen, List.nil_append, List.append_nil] at log
  cases broken : started.failure with
  | some failure =>
    simp only [broken]
    have inexact : ¬ h.Exact I s.settings := fun exact => by
      obtain ⟨_, _, _, _, paced⟩ := timely exact
      rw [paced.unbroken] at broken
      cases broken
    rw [show started.mended.outside.2 = _ from log, show started.mended.machine = _ from machine]
    exact .unstarted inexact rfl rfl
  | none =>
    have going : started.Open (I (2 * limit)) := ⟨by rw [machine]; exact holds, broken⟩
    obtain ⟨calls, more, rounds⟩ := rounds_follow attends patience limit going
      (whole.uninterrupted uninterrupted) whole.settings timely
    simp only [broken]
    rw [more, log, List.singleton_append]
    rw [machine, cancelled] at rounds
    exact .opened rfl rfl called.heeded rounds

end

def watched (s : Session σ) : Session (σ × List Entry) :=
  s.onto fun outside => (outside, [])

/-- Whatever the machine, the settings, the clock and the moments at which the host cancels, a run
follows the protocol, and it runs just as it does when nobody watches. -/
theorem run_follows_protocol {I : Nat → Machine → σ → Prop} (attends : h.Attends I) {s : Session σ}
    {patience limit : Nat} (holds : I (2 * limit + 1) s.machine s.outside)
    (unbroken : s.failure = none) (uninterrupted : s.interrupted = false) :
    let watched := s.watched.run h.watched patience limit
    s.run h patience limit = watched.map id (onto Prod.fst) ∧
      Protocol (h.Exact I s.settings) h.hasBuzzer s.settings limit s.cancelled s.machine
        watched.2.outside.2 watched.1 watched.2.machine := by
  intro watched
  exact ⟨h.watched_projects.run patience limit s.watched,
    protocol_of_open (s := s.watched) attends ⟨holds, unbroken⟩ uninterrupted rfl⟩

/-- A host whose clock moves on by more than a frame whenever it is read, and that cancels the
session when it is to show a picture. -/
def hastyHost : Host Int where
  clock t := (.ok (.whole t), t + 20000000)
  react call s := if call = .render then s.cancel else s

abbrev AlwaysInRange {σ : Type} (_ : Nat) (m : Machine) (_ : σ) : Prop :=
  m.InRange

theorem hastyHost_attends : hastyHost.Attends AlwaysInRange where
  clock range := range
  fewer range := range
  attentive _ :=
    { invariant := Machine.inRange_invariant
      react := by
        intro call s _ _
        unfold hastyHost
        dsimp only
        split
        · exact ⟨⟨rfl, rfl, rfl, rfl, id⟩, fun _ => rfl, id⟩
        · exact ⟨⟨rfl, rfl, rfl, rfl, id⟩, id, id⟩ }

/-- A jump to itself runs at the usual rates until the first picture. -/
theorem run_follows_protocol_until_picture :
    let s : Session Int :=
      { machine := Machine.withProgram {} (.cycle 0 []) [0x12, 0x00], settings := {}, outside := 0 }
    let watched := s.watched.run hastyHost.watched 0 9
    hastyHost.Exact AlwaysInRange {} ∧ s.run hastyHost 0 9 = watched.map id (onto Prod.fst) ∧
      Protocol (hastyHost.Exact AlwaysInRange {}) true {} 9 false s.machine
        watched.2.outside.2 watched.1 watched.2.machine := by
  have range := (Machine.withProgram_reachable {} (.cycle 0 []) [0x12, 0x00]).inRange
  have exact : hastyHost.Exact AlwaysInRange {} :=
    { clock := fun {_ _ t} _ => ⟨t, rfl⟩
      cycle := ⟨_, by decide, period_of_whole (n := 700) rfl⟩
      frame := ⟨_, period_of_whole (n := 60) rfl⟩ }
  generalize Machine.withProgram {} (.cycle 0 []) [0x12, 0x00] = m at range
  exact ⟨exact, run_follows_protocol hastyHost_attends range rfl rfl⟩

end Session

end ChipEight
