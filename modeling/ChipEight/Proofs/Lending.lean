import ChipEight.Proofs.History
import ChipEight.Proofs.Reads

/-!
A keyboard makes its terminal raw, and gives it the mode back that it found. It keeps a single mode
in mind, so a second start makes it forget the terminal's own.
-/

namespace ChipEight

namespace Terminal

variable (t : Terminal)

theorem mode_push (b : UInt8) : (t.push b).mode = t.mode := by
  unfold push
  split <;> rfl

theorem mode_act (action : TerminalAction) : (t.act action).mode = t.mode := by
  cases action with
  | take b => exact t.mode_push b
  | _ => rfl

theorem mode_receive (b : UInt8) : (t.receive b).mode = t.mode := by
  unfold receive
  split
  · exact mode_push _ b
  · exact t.mode_act _

theorem mode_read (limit : Nat) : (t.read limit).2.mode = t.mode := by
  unfold read
  split
  · split <;> rfl
  · rfl

theorem mode_enter (mode : TerminalMode) : (t.enter mode).mode = mode := by
  unfold enter
  split <;> rfl

end Terminal

namespace Input

variable (input : Input)

theorem mode?_send (bytes : List UInt8) : (input.send bytes).mode? = input.mode? := by
  cases input with
  | queue waiting => rfl
  | terminal t =>
    have kept : (bytes.foldl Terminal.receive t).mode = t.mode :=
      List.foldlRecOn (motive := fun u : Terminal => u.mode = t.mode) bytes _ rfl
        fun u same b _ => (u.mode_receive b).trans same
    exact congrArg some kept

theorem mode?_read (limit : Nat) : (input.read limit).2.mode? = input.mode? := by
  cases input with
  | queue waiting => rfl
  | terminal t => exact congrArg some (t.mode_read limit)

end Input

namespace Keyboard

variable (k : Keyboard) (pad : HexPad)

theorem saved_type (now : Number) (bytes : List UInt8) :
    (k.type pad now bytes).1.saved = k.saved := by
  rw [type, typeUntil_eq]
  rfl

theorem mode?_available (input : Input) : (k.available input).2.mode? = input.mode? := by
  unfold available
  split
  · exact input.mode?_read _
  · rfl

end Keyboard

namespace Console

variable {c : Console} {saved : Option TerminalMode} {mode : TerminalMode}

/-- The keyboard has a mode in mind or none, and its terminal is in another. -/
structure Holds (c : Console) (saved : Option TerminalMode) (mode : TerminalMode) : Prop where
  saved : c.keyboard.saved = saved
  mode : c.input.mode? = some mode

namespace Holds

theorem start (holds : c.Holds saved mode) : c.start.Holds (some mode) .raw := by
  obtain ⟨_, found⟩ := holds
  rcases c with ⟨keyboard, pad, waiting | t, exits⟩
  · cases found
  · cases found
    exact ⟨rfl, rfl⟩

theorem stop (holds : c.Holds saved mode) : c.stop.Holds none (saved.getD mode) := by
  obtain ⟨kept, found⟩ := holds
  rcases c with ⟨keyboard, pad, waiting | t, exits⟩
  · cases found
  · cases found
    cases saved with
    | none =>
      simp only at kept
      simp only [Console.stop, Keyboard.stop, kept]
      exact ⟨kept, rfl⟩
    | some own =>
      simp only at kept
      simp only [Console.stop, Keyboard.stop, kept]
      exact ⟨rfl, congrArg some (t.mode_enter own)⟩

theorem poll (holds : c.Holds saved mode) (now : Number) : (c.poll now).Holds saved mode where
  saved := (Keyboard.saved_type _ _ now _).trans holds.saved
  mode := (Keyboard.mode?_available _ c.input).trans holds.mode

theorem type (holds : c.Holds saved mode) (now : Number) (bytes : List UInt8) :
    (c.type now bytes).Holds saved mode where
  saved := (Keyboard.saved_type _ _ now bytes).trans holds.saved
  mode := holds.mode

theorem send (holds : c.Holds saved mode) (bytes : List UInt8) :
    (c.send bytes).Holds saved mode where
  saved := holds.saved
  mode := (c.input.mode?_send bytes).trans holds.mode

end Holds

def Running (actions : List Action) : Prop :=
  Since (fun _ action => action = .start) (fun _ action => action ≠ .stop) actions

/-- The keyboard was started while it was running. -/
def Restarted (actions : List Action) : Prop :=
  Once (fun before action => action = .start ∧ Running before) actions

theorem not_running_nil : ¬ Running [] :=
  not_since_nil

theorem not_restarted_nil : ¬ Restarted [] :=
  not_once_nil

theorem running_concat {actions : List Action} {action : Action} :
    Running (actions ++ [action]) ↔ action = .start ∨ Running actions ∧ action ≠ .stop :=
  since_concat

theorem restarted_concat {actions : List Action} {action : Action} :
    Restarted (actions ++ [action]) ↔ (action = .start ∧ Running actions) ∨ Restarted actions :=
  once_concat

inductive Fate (own : TerminalMode) (actions : List Action) (c : Console) : Prop
  | returned (proper : ¬ Restarted actions) (resting : ¬ Running actions) (holds : c.Holds none own)
  | lent (proper : ¬ Restarted actions) (running : Running actions)
    (holds : c.Holds (some own) .raw)
  | lost {saved : Option TerminalMode} (restarted : Restarted actions) (holds : c.Holds saved .raw)
    (raw : saved.getD .raw = .raw)

namespace Fate

variable {own : TerminalMode} {actions : List Action}

theorem start (fate : Fate own actions c) : Fate own (actions ++ [.start]) c.start := by
  have running : Running (actions ++ [.start]) := running_concat.mpr (.inl rfl)
  cases fate with
  | returned proper resting holds =>
    refine .lent ?_ running holds.start
    rw [restarted_concat]
    rintro (⟨_, earlier⟩ | restarted)
    · exact resting earlier
    · exact proper restarted
  | lent _ earlier holds =>
    exact .lost (restarted_concat.mpr (.inl ⟨rfl, earlier⟩)) holds.start rfl
  | lost restarted holds => exact .lost (restarted_concat.mpr (.inr restarted)) holds.start rfl

theorem restarted_iff {action : Action} (other : action ≠ .start) :
    Restarted (actions ++ [action]) ↔ Restarted actions :=
  restarted_concat.trans (or_iff_right fun same => other same.1)

theorem stop (fate : Fate own actions c) : Fate own (actions ++ [.stop]) c.stop := by
  have restarted : Restarted (actions ++ [.stop]) ↔ Restarted actions := restarted_iff nofun
  have resting : ¬ Running (actions ++ [.stop]) := by
    rw [running_concat]
    rintro (last | ⟨_, last⟩)
    · cases last
    · exact last rfl
  cases fate with
  | returned proper _ holds => exact .returned (mt restarted.mp proper) resting holds.stop
  | lent proper _ holds => exact .returned (mt restarted.mp proper) resting holds.stop
  | lost earlier holds raw =>
    have stopped := holds.stop
    rw [raw] at stopped
    exact .lost (restarted.mpr earlier) stopped rfl

theorem between (fate : Fate own actions c) {after : Console} {action : Action}
    (noStart : action ≠ .start) (noStop : action ≠ .stop)
    (kept : ∀ {saved mode}, c.Holds saved mode → after.Holds saved mode) :
    Fate own (actions ++ [action]) after := by
  have restarted : Restarted (actions ++ [action]) ↔ Restarted actions := restarted_iff noStart
  have running : Running (actions ++ [action]) ↔ Running actions := by
    rw [running_concat, or_iff_right noStart, and_iff_left noStop]
  cases fate with
  | returned proper resting holds =>
    exact .returned (mt restarted.mp proper) (mt running.mp resting) (kept holds)
  | lent proper earlier holds =>
    exact .lent (mt restarted.mp proper) (running.mpr earlier) (kept holds)
  | lost earlier holds raw => exact .lost (restarted.mpr earlier) (kept holds) raw

theorem perform (fate : Fate own actions c) (action : Action) :
    Fate own (actions ++ [action]) (c.perform action) := by
  cases action with
  | start => exact fate.start
  | stop => exact fate.stop
  | poll now => exact fate.between nofun nofun fun holds => holds.poll now
  | type now bytes => exact fate.between nofun nofun fun holds => holds.type now bytes
  | send bytes => exact fate.between nofun nofun fun holds => holds.send bytes

theorem performAll (holds : c.Holds none own) (actions : List Action) :
    Fate own actions (c.performAll actions) :=
  foldl_induction (motive := Fate own) (.returned not_restarted_nil not_running_nil holds)
    (fun _ _ action fate => fate.perform action) actions

end Fate

variable {own : TerminalMode}

/-- Whatever is asked of a keyboard, a stop at the end leaves the terminal in its own mode exactly
if the keyboard was never started while it was running, or the terminal was raw to begin with. After
such a start the terminal stays raw. -/
theorem stop_returns_mode_iff (holds : c.Holds none own) (actions : List Action) :
    let stopped := c.performAll (actions ++ [.stop])
    (stopped.input.mode? = some own ↔ ¬ Restarted actions ∨ own = .raw) ∧
      (Restarted actions → stopped.input.mode? = some .raw) := by
  intro stopped
  have same : Restarted (actions ++ [.stop]) ↔ Restarted actions := Fate.restarted_iff nofun
  cases Fate.performAll holds (actions ++ [.stop]) with
  | returned proper _ holds =>
    rw [same] at proper
    exact ⟨iff_of_true holds.mode (.inl proper), fun restarted => absurd restarted proper⟩
  | lent _ running =>
    rcases running_concat.mp running with last | ⟨_, last⟩
    · cases last
    · exact absurd rfl last
  | lost restarted holds =>
    rw [same] at restarted
    refine ⟨?_, fun _ => holds.mode⟩
    rw [holds.mode, Option.some_inj, eq_comm, or_iff_right (not_not_intro restarted)]

/-- A terminal is returned by a keyboard that is started and stopped twice in turn, and lost by one
that is started twice at once. -/
theorem stop_returns_mode_unless_started_twice :
    let c : Console := { input := .terminal {} }
    c.Holds none {} ∧
      (c.performAll ([.start, .poll (.whole 0), .stop, .start] ++ [.stop])).input.mode? = some {} ∧
      (c.performAll ([.start, .start] ++ [.stop])).input.mode? ≠ some {} := by
  intro c
  have holds : c.Holds none {} := ⟨rfl, rfl⟩
  have proper : ¬ Restarted ([] ++ [.start] ++ [.poll (.whole 0)] ++ [.stop] ++ [.start]) := by
    simp only [restarted_concat, running_concat, not_restarted_nil, not_running_nil]
    simp
  have twice : Restarted ([] ++ [.start] ++ [.start]) :=
    restarted_concat.mpr (.inl ⟨rfl, running_concat.mpr (.inl rfl)⟩)
  refine ⟨holds, (stop_returns_mode_iff holds _).1.mpr (.inl proper), ?_⟩
  intro returned
  rcases (stop_returns_mode_iff holds _).1.mp returned with proper | raw
  · exact proper twice
  · cases raw

end Console

end ChipEight
