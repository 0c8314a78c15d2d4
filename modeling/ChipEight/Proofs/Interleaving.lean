import ChipEight.Proofs.Faults
import ChipEight.Proofs.Quirks

/-!
Keys and timers change while a program runs, but few instructions look at them. A step that carries
out none of these and an event may trade places.
-/

namespace ChipEight

open Attempt (Matched)

namespace Instruction

def asksPad (i : Instruction) : Bool :=
  match i.operation with
  | .skipPressed | .skipReleased | .awaitKey => true
  | _ => false

def usesTimers (i : Instruction) : Bool :=
  match i.operation with
  | .getDelay | .setDelay | .setSound => true
  | _ => false

end Instruction

namespace Machine

variable {m n : Machine}

def touched (f : HexPad → HexPad) (g : Countdown → Countdown) (m : Machine) : Machine :=
  { m with pad := f m.pad, timers := g m.timers }

theorem touched_twinned (f : HexPad → HexPad) (g : Countdown → Countdown) :
    Twinned fun m n => n = m.touched f g where
  same := by
    rintro m _ rfl
    exact ⟨_, _, _, _, rfl⟩
  change := by
    rintro m _ memory registers stack screen rom fault awaitingKey cycles rfl
    rfl

theorem executeAwaitKey_touched (g : Countdown → Countdown) (x : Register) :
    (m.touched id g).executeAwaitKey x = (m.executeAwaitKey x).touched id g := by
  cases waiting : m.awaitingKey with
  | false => simp [executeAwaitKey, touched, HexPad.beginWait, waiting]
  | true =>
    cases released : m.pad.released with
    | none => simp [executeAwaitKey, touched, waiting, released]
    | some key => simp [executeAwaitKey, touched, waiting, released]

theorem concur_touched {f : HexPad → HexPad} {g : Countdown → Countdown} {i : Instruction}
    (pad : i.asksPad → f = id) (timers : i.usesTimers → g = id) :
    Concur (fun m n => n = m.touched f g) m (m.touched f g) i := by
  unfold Instruction.asksPad at pad
  unfold Instruction.usesTimers at timers
  unfold Concur
  cases op : i.operation with
  | skipPressed | skipReleased =>
    obtain rfl := pad (by rw [op])
    rfl
  | awaitKey =>
    obtain rfl := pad (by rw [op])
    exact executeAwaitKey_touched g i.x
  | getDelay | setDelay | setSound =>
    obtain rfl := timers (by rw [op])
    rfl
  | random => exact ⟨rfl, rfl⟩
  | _ => first | rfl | trivial

theorem step_touched {f : HexPad → HexPad} {g : Countdown → Countdown}
    (pad : ∀ i, m.executing? = some i → i.asksPad → f = id)
    (timers : ∀ i, m.executing? = some i → i.usesTimers → g = id) :
    Attempt.reply (m.touched f g).step = (Attempt.reply m.step).map id (touched f g) := by
  have stepped : Matched (fun m n => n = m.touched f g) m.step (m.touched f g).step :=
    (touched_twinned f g).step rfl fun i next => concur_touched (pad i next) (timers i next)
  generalize m.step = here, (m.touched f g).step = there at stepped ⊢
  cases stepped with
  | ok related =>
    subst related
    rfl
  | error related =>
    subst related
    rfl

def Action.isStep : Action → Bool
  | .step => true
  | _ => false

def Action.isKeyEvent : Action → Bool
  | .press _ | .release _ => true
  | _ => false

theorem perform_of_isKeyEvent {event : Action} (key : event.isKeyEvent) :
    ∃ f, ∀ m : Machine, m.perform event = m.touched f id := by
  cases event with
  | press k => exact ⟨fun pad => pad.press (Key.ofInt k), fun _ => rfl⟩
  | release k => exact ⟨fun pad => pad.release (Key.ofInt k), fun _ => rfl⟩
  | _ => cases key

def ExecutesOnly (P : Instruction → Prop) (m : Machine) : List Action → Prop
  | [] => True
  | action :: later =>
    (∀ reached i, m.Executes action reached i → P i) ∧ (m.perform action).ExecutesOnly P later

/-- The instruction looks neither at the pad nor at the delay timer. It may set a timer. -/
def LooksInside (i : Instruction) : Prop :=
  ¬ i.asksPad ∧ i.operation ≠ .getDelay

/-- The machines differ in timers and pad at most. -/
def Beside (m n : Machine) : Prop :=
  ∃ timers pad, n = { m with timers, pad }

theorem Beside.refl (m : Machine) : Beside m m :=
  ⟨m.timers, m.pad, rfl⟩

theorem Beside.symm (beside : Beside m n) : Beside n m := by
  obtain ⟨timers, pad, rfl⟩ := beside
  exact ⟨m.timers, m.pad, rfl⟩

theorem Beside.trans {l : Machine} (first : Beside l m) (second : Beside m n) : Beside l n := by
  obtain ⟨_, _, rfl⟩ := first
  obtain ⟨timers, pad, rfl⟩ := second
  exact ⟨timers, pad, rfl⟩

theorem beside_twinned : Twinned Beside where
  same := by
    rintro m _ ⟨timers, pad, rfl⟩
    exact ⟨_, _, _, _, rfl⟩
  change := by
    rintro m _ memory registers stack screen rom fault awaitingKey cycles ⟨timers, pad, rfl⟩
    exact ⟨timers, pad, rfl⟩

theorem Beside.concur (beside : Beside m n) {i : Instruction} (inside : LooksInside i) :
    Concur Beside m n i := by
  obtain ⟨timers, pad, rfl⟩ := beside
  obtain ⟨blind, other⟩ := inside
  unfold Instruction.asksPad at blind
  unfold Concur
  cases op : i.operation with
  | skipPressed | skipReleased | awaitKey =>
    exact absurd (by rw [op]) blind
  | getDelay => exact absurd op other
  | setDelay | setSound => exact ⟨_, _, rfl⟩
  | random => exact ⟨rfl, _, _, rfl⟩
  | _ => first | rfl | trivial

theorem Beside.step (beside : Beside m n)
    (inside : ∀ i, m.executing? = some i → LooksInside i) : Matched Beside m.step n.step := by
  refine beside_twinned.step beside fun i next => ?_
  have fetched : Beside m.fetched n.fetched := by
    obtain ⟨timers, pad, rfl⟩ := beside
    exact ⟨timers, pad, rfl⟩
  exact fetched.concur (inside i next)

theorem beside_perform {action : Action} (playing : action.playing) (event : ¬ action.isStep) :
    Beside m (m.perform action) ∧ m.answer? action = none := by
  cases action with
  | press | release | setDelay | setSound | countDown => exact ⟨⟨_, _, rfl⟩, rfl⟩
  | step => exact absurd rfl event
  | loadFont | loadRom | configure | reset | run | execute => cases playing

theorem beside_performAll {events : List Action} (playing : ∀ action ∈ events, action.playing)
    (event : ∀ action ∈ events, ¬ action.isStep) :
    Beside m (m.performAll events) ∧
      ∀ later, m.answers (events ++ later) = (m.performAll events).answers later := by
  induction events generalizing m with
  | nil => exact ⟨.refl m, fun _ => rfl⟩
  | cons action events ih =>
    rw [List.forall_mem_cons] at playing event
    obtain ⟨first, silent⟩ := beside_perform (m := m) playing.1 event.1
    obtain ⟨others, same⟩ := ih (m := m.perform action) playing.2 event.2
    refine ⟨first.trans others, fun later => ?_⟩
    rw [List.cons_append, answers, silent]
    exact same later

theorem step_of_isStep {action : Action} (step : action.isStep) : action = .step := by
  cases action with
  | step => rfl
  | _ => cases step

theorem first_step {actions : List Action} {count : Nat}
    (steps : actions.countP Action.isStep = count + 1) :
    ∃ events later, actions = events ++ .step :: later ∧
      (∀ action ∈ events, ¬ action.isStep) ∧ later.countP Action.isStep = count := by
  have some : 0 < actions.countP Action.isStep := by omega
  obtain ⟨action, member, step⟩ := List.countP_pos_iff.mp some
  obtain rfl := step_of_isStep step
  obtain ⟨events, later, rfl, fresh⟩ := List.eq_append_cons_of_mem member
  have before : ∀ action ∈ events, ¬ action.isStep := by
    intro action earlier step
    obtain rfl := step_of_isStep step
    exact fresh earlier
  refine ⟨events, later, rfl, before, ?_⟩
  rw [List.countP_append, List.countP_eq_zero.mpr before, List.countP_cons_of_pos rfl] at steps
  omega

/-- Machines beside each other stay so and give the same answers if they take the same number of
steps, whatever happens between the steps. -/
theorem Beside.interleaved (beside : Beside m n) {actions others : List Action}
    (playing : ∀ action ∈ actions, action.playing) (played : ∀ action ∈ others, action.playing)
    (steps : actions.countP Action.isStep = others.countP Action.isStep)
    (inside : m.ExecutesOnly LooksInside actions) :
    m.answers actions = n.answers others ∧ Beside (m.performAll actions) (n.performAll others) := by
  -- the other run catches up at each step of this one
  induction actions generalizing m n others with
  | nil =>
    have events := List.countP_eq_zero.mp steps.symm
    obtain ⟨drifts, silent⟩ := beside_performAll (m := n) played events
    have quiet := silent []
    rw [List.append_nil] at quiet
    exact ⟨quiet.symm, beside.trans drifts⟩
  | cons action actions ih =>
    rw [List.forall_mem_cons] at playing
    obtain ⟨here, rest⟩ := inside
    by_cases step : action.isStep
    · obtain rfl := step_of_isStep step
      rw [List.countP_cons_of_pos step] at steps
      obtain ⟨events, later, rfl, between, left⟩ := first_step steps.symm
      rw [List.forall_mem_append, List.forall_mem_cons] at played
      obtain ⟨drifts, silent⟩ := beside_performAll (m := n) played.1 between
      have stepped : Matched Beside m.step (n.performAll events).step :=
        (beside.trans drifts).step fun i next => here m i (.step next)
      obtain ⟨same, ends⟩ := ih stepped.left playing.2 played.2.2 left.symm rest
      refine ⟨?_, ?_⟩
      · rw [silent, answers, answers, answer?, answer?, stepped.reply]
        exact congrArg _ same
      · rw [performAll, performAll, List.foldl_append]
        exact ends
    · rw [List.countP_cons_of_neg step] at steps
      obtain ⟨drifts, silent⟩ := beside_perform (m := m) playing.1 step
      obtain ⟨same, ends⟩ := ih (drifts.symm.trans beside) playing.2 played steps rest
      refine ⟨?_, ends⟩
      rw [answers, silent]
      exact same

/-- A step trades places with a key event unless its instruction looks at the pad, and with a
countdown unless it uses a timer. So it does not matter for a run in which nothing looks at the pad
or the delay timer where between its steps keys and timers change. -/
theorem events_commute_with_other_steps (m : Machine) :
    (∀ event : Action, event.isKeyEvent → (∀ i, m.executing? = some i → ¬ i.asksPad) →
      Attempt.reply (m.perform event).step =
        (Attempt.reply m.step).map id fun after => after.perform event) ∧
    ((∀ i, m.executing? = some i → ¬ i.usesTimers) →
      Attempt.reply (m.perform .countDown).step =
        (Attempt.reply m.step).map id fun after => after.perform .countDown) ∧
    ∀ actions others : List Action, (∀ action ∈ actions, action.playing) →
      (∀ action ∈ others, action.playing) →
      actions.countP Action.isStep = others.countP Action.isStep →
      m.ExecutesOnly LooksInside actions →
        m.answers actions = m.answers others ∧
          Beside (m.performAll actions) (m.performAll others) := by
  refine ⟨fun event key blind => ?_, fun unused => ?_, fun actions others playing played => ?_⟩
  · obtain ⟨f, touches⟩ := perform_of_isKeyEvent key
    simp only [touches]
    exact step_touched (fun i next asks => absurd asks (blind i next)) fun _ _ _ => rfl
  · exact step_touched (fun _ _ _ => rfl) fun i next uses => absurd uses (unused i next)
  · exact (Beside.refl m).interleaved playing played

/-- A return without a call stops at a fault, whatever happens around it. -/
theorem events_commute_with_other_steps_at_return :
    let machine := withProgram {} (.cycle 0 []) [0x00, 0xEE]
    Attempt.reply (machine.perform (.press 3)).step =
        (Attempt.reply machine.step).map id (fun after => after.perform (.press 3)) ∧
      Attempt.reply (machine.perform .countDown).step =
        (Attempt.reply machine.step).map id (fun after => after.perform .countDown) ∧
      machine.answers [.step, .countDown, .step] =
        machine.answers [.press 3, .step, .setDelay 9, .release 3, .step] ∧
      Beside (machine.performAll [.step, .countDown, .step])
        (machine.performAll [.press 3, .step, .setDelay 9, .release 3, .step]) := by
  intro machine
  have range : machine.InRange := (withProgram_reachable {} (.cycle 0 []) [0x00, 0xEE]).inRange
  obtain ⟨running, stops⟩ := stop?_of_return {} (.cycle 0 []) (by decide) (by decide)
    (by decide : ([0x00, 0xEE].getD 0 0 : UInt8).toNat * 256 + ([0x00, 0xEE].getD 1 0 : UInt8).toNat = 0x00EE)
  obtain ⟨fault, _, stepped⟩ := step_of_stop range running stops
  have start : machine.registers = {} := by
    rw [show machine = _ from withProgram_eq {} (.cycle 0 []) (by decide)]
    rfl
  have word : machine.wordAt machine.registers.pc = 0x00EE := by
    rw [start]
    exact wordAt_withProgram {} (.cycle 0 []) (by decide) 0 (by decide)
  have first (i : Instruction) (next : machine.executing? = some i) : i = ⟨.ret, 0x00EE⟩ := by
    have decoded := decode_of_executing? next
    rw [word] at decoded
    cases decoded
    rfl
  have stopped : ((machine.perform .step).perform .countDown).fault = some fault := by
    rw [perform, perform, stepped]
    rfl
  have only : machine.ExecutesOnly LooksInside [.step, .countDown, .step] := by
    refine ⟨?_, ?_, ?_, trivial⟩
    · rintro _ i ⟨next⟩
      rw [first i next]
      exact ⟨by decide, by decide⟩
    · rintro _ _ ⟨⟩
    · rintro _ i ⟨next⟩
      rw [executing?, stopped] at next
      cases next
  obtain ⟨keys, countdown, orders⟩ := events_commute_with_other_steps machine
  exact ⟨keys (.press 3) rfl fun i next => by rw [first i next]; decide,
    countdown fun i next => by rw [first i next]; decide,
    orders _ _ (by decide) (by decide) (by decide) only⟩

end Machine

end ChipEight
