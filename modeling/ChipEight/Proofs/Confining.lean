import ChipEight.Proofs.Drawing
import ChipEight.Proofs.Lending
import ChipEight.Proofs.Watching
import ChipEight.Program

/-!
What no answer to a call and no reading of the clock changes is as it was when a session is over. So
a terminal keeps its mode in a session, and a window is neither opened nor closed.
-/

namespace ChipEight

variable {σ : Type}

/-! ### Hosts that keep a property -/

structure Host.Confines (h : Host σ) (P : σ → Prop) : Prop where
  clock : ∀ outside, P outside → P (h.clock outside).2
  react : ∀ call s, P s.outside → P (h.react call s).outside

def Host.confined {h : Host σ} {P : σ → Prop} (confines : h.Confines P) :
    Host { outside // P outside } where
  clock outside := ((h.clock outside.1).1, ⟨(h.clock outside.1).2, confines.clock _ outside.2⟩)
  react call s :=
    let after := h.react call (s.onto Subtype.val)
    { after with outside := ⟨after.outside, confines.react call (s.onto Subtype.val) s.outside.2⟩ }
  hasBuzzer := h.hasBuzzer

theorem Host.confined_projects {h : Host σ} {P : σ → Prop} (confines : h.Confines P) :
    (Host.confined confines).Projects Subtype.val h where
  clock _ := rfl
  react _ _ := rfl
  hasBuzzer := rfl

namespace Session

variable {h : Host σ} {P : σ → Prop} {s : Session σ}

theorem onto_val (holds : P s.outside) :
    ({ s with outside := ⟨s.outside, holds⟩ } : Session { outside // P outside }).onto
      Subtype.val = s :=
  rfl

theorem start_keeps (confines : h.Confines P) (holds : P s.outside) : P (s.start h).outside := by
  -- in the confined world the property is part of the type
  rw [← onto_val holds, (Host.confined_projects confines).start]
  exact Subtype.property _

theorem rounds_keeps (confines : h.Confines P) (patience limit : Nat) (holds : P s.outside) :
    P (s.rounds h patience limit).2.outside := by
  rw [← onto_val holds, (Host.confined_projects confines).rounds]
  exact Subtype.property _

theorem run_keeps (confines : h.Confines P) (patience limit : Nat)
    (holds : P (h.react .clear s).outside) : P (s.run h patience limit).2.outside := by
  have opened : P (s.opened h).outside := by
    unfold Session.opened andThen
    split
    · exact holds
    · exact start_keeps confines holds
  unfold Session.run
  dsimp only
  split
  · exact opened
  · exact rounds_keeps confines patience limit opened

end Session

/-! ### Terminals -/

namespace TerminalFront

/-- The keyboard has a mode in mind or none, the terminal is in another mode or there is none, and
the screen was wiped. -/
structure Lent (saved mode : Option TerminalMode) (f : TerminalFront) : Prop where
  saved : f.keyboard.saved = saved
  mode : f.input.mode? = mode
  wiped : Picture.wipe ∈ f.written.toList

variable {saved mode : Option TerminalMode} {f : TerminalFront} {s : Session TerminalFront}

theorem Lent.write (lent : f.Lent saved mode) (text : String) : (f.write text).Lent saved mode where
  saved := lent.saved
  mode := lent.mode
  wiped := by
    rw [TerminalFront.write, Array.toList_push]
    exact List.mem_append_left _ lent.wiped

theorem Lent.poll (lent : s.outside.Lent saved mode) (now : Number) :
    (poll now s).outside.Lent saved mode := by
  have polled : ({ s.outside with
      keyboard := (s.outside.keyboard.poll s.machine.pad now s.outside.input).1
      input := (s.outside.keyboard.poll s.machine.pad now s.outside.input).2.2.1 } :
      TerminalFront).Lent saved mode :=
    { saved := (Keyboard.saved_type _ _ now _).trans lent.saved
      mode := (Keyboard.mode?_available _ s.outside.input).trans lent.mode
      wiped := lent.wiped }
  unfold TerminalFront.poll
  dsimp only
  split <;> exact polled

theorem Lent.atTime {call : Number → Session TerminalFront → Session TerminalFront}
    (lent : s.outside.Lent saved mode)
    (kept : ∀ now, (call now s).outside.Lent saved mode) :
    (atTime call s).outside.Lent saved mode := by
  unfold TerminalFront.atTime
  split
  · exact kept _
  · exact lent

theorem Lent.beep (lent : s.outside.Lent saved mode) (now : Number) :
    (beep now s).outside.Lent saved mode := by
  unfold TerminalFront.beep
  split
  · rename_i text bell _
    exact Lent.write (f := { s.outside with bell }) { lent with } text
  · exact lent

theorem host_confines (saved mode : Option TerminalMode) : host.Confines (Lent saved mode) where
  clock _ lent := { lent with }
  react call s lent := by
    cases call with
    | clear => exact lent.write _
    | render => exact lent.write _
    | poll => exact lent.atTime lent.poll
    | beep => exact lent.atTime lent.beep
    | sleep seconds =>
      have slept : s.outside.sleep.Lent saved mode :=
        { lent with mode := (s.outside.input.mode?_send _).trans lent.mode }
      simp only [host, react, Timeline.wake]
      split <;> exact slept

theorem lent_clear (f : TerminalFront) (unsaved : f.keyboard.saved = none) :
    (f.enter.write Picture.wipe).Lent f.input.mode? (f.input.mode?.map fun _ => .raw) := by
  rcases f with ⟨_, keyboard, _, waiting | t, _, _⟩
  · exact ⟨unsaved, rfl, by simp [TerminalFront.write]⟩
  · exact ⟨rfl, rfl, by simp [TerminalFront.write]⟩

theorem Lent.leave (lent : f.Lent saved (saved.map fun _ => .raw)) :
    f.leave.input.mode? = saved := by
  obtain ⟨kept, found, _⟩ := lent
  rcases f with ⟨_, keyboard, _, waiting | t, _, _⟩
  · cases saved with
    | none =>
      simp only at kept
      simp only [TerminalFront.leave, Keyboard.stop, kept]
      rfl
    | some own => cases found
  · cases saved with
    | none => cases found
    | some own =>
      simp only at kept
      simp only [TerminalFront.leave, Keyboard.stop, kept]
      exact congrArg some (t.mode_enter own)

theorem Lent.output_ne (lent : f.Lent saved mode) : f.output ≠ "" := by
  intro empty
  have nothing : f.written.toList.flatMap String.toList = [] := by
    rw [← String.toList_join]
    exact congrArg String.toList empty
  have blank := List.flatMap_eq_nil_iff.mp nothing _ lent.wiped
  exact absurd blank (by decide)

end TerminalFront

/-! ### Windows -/

def DeviceCall.borders : DeviceCall → Bool
  | .openWindow .. | .closeWindow => true
  | _ => false

def Inner (calls : List DeviceCall) : Prop :=
  ∀ c ∈ calls, c.borders = false

theorem Inner.append {calls more : List DeviceCall} (first : Inner calls) (rest : Inner more) :
    Inner (calls ++ more) :=
  List.forall_mem_append.mpr ⟨first, rest⟩

theorem Inner.of_plain {calls : List DeviceCall} (plain : ∀ c ∈ calls, c.isPlain = true) :
    Inner calls := by
  intro c member
  have single := plain c member
  cases c <;> first
    | rfl
    | cases single

namespace Window

theorem inner_handle (w : Window) (s : Scene) (e : WindowEvent) : Inner (w.handle s e).calls := by
  cases e with
  | draw =>
    have picture (image : Image) : Inner [.clear, .blit image] := by
      simp [Inner, DeviceCall.borders]
    change Inner (w.draw s).calls
    unfold draw
    dsimp only
    split
    · exact (picture _).append (.of_plain (labels_plain ‹_›))
    · exact picture _
  | press key => nofun
  | release key => nofun
  | close => nofun

theorem inner_handleAll (w : Window) (s : Scene) (events : List WindowEvent) :
    Inner (w.handleAll s events).1.calls := by
  induction events generalizing w s with
  | nil => nofun
  | cons e events ih =>
    have first := w.inner_handle s e
    unfold handleAll
    dsimp only
    split
    · exact first
    · exact first.append (ih _ _)

end Window

namespace WindowFront

def Open (opening : List DeviceCall) (f : WindowFront) : Prop :=
  ∃ middle, f.calls.toList = opening ++ middle ∧ Inner middle

variable {opening : List DeviceCall} {f : WindowFront} {s : Session WindowFront}

theorem Open.call {calls : List DeviceCall} (isOpen : f.Open opening) (inner : Inner calls) :
    (f.call calls).Open opening := by
  obtain ⟨middle, same, plain⟩ := isOpen
  refine ⟨middle ++ calls, ?_, plain.append inner⟩
  rw [WindowFront.call, Array.toList_appendList, same, List.append_assoc]

theorem Open.after {r : Reaction} (isOpen : s.outside.Open opening) (inner : Inner r.calls) :
    (after s r).outside.Open opening :=
  Open.call isOpen inner

theorem Open.happen (isOpen : s.outside.Open opening) (h : Happening) :
    (happen s h).outside.Open opening := by
  cases h with
  | window event => exact isOpen.after (Window.inner_handle _ _ event)
  | toneEnds player =>
    cases ended : s.outside.buzzer.finish player with
    | error failure =>
      simp only [WindowFront.happen, ended]
      exact isOpen
    | ok outcome =>
      simp only [WindowFront.happen, ended]
      exact Open.call isOpen (.of_plain (Buzzer.finish_plain ended))

theorem Open.poll (isOpen : s.outside.Open opening) : (poll s).outside.Open opening := by
  refine List.foldlRecOn (motive := fun t : Session WindowFront => t.outside.Open opening)
    _ _ ?_ fun t isOpen h _ => ?_
  · refine Open.after (s := { s with outside := _ }) isOpen ?_
    exact List.forall_mem_cons.mpr ⟨rfl, Window.inner_handleAll _ _ _⟩
  · unfold Session.andThen
    split
    · exact isOpen
    · exact isOpen.happen h

theorem host_confines (opening : List DeviceCall) : host.Confines (Open opening) where
  clock _ isOpen := isOpen
  react call s isOpen := by
    cases call with
    | clear => exact isOpen.call (by simp [Inner, DeviceCall.borders])
    | render => exact Open.call isOpen (by simp [Inner, DeviceCall.borders])
    | poll => exact isOpen.poll
    | beep => exact Open.call isOpen (.of_plain s.outside.buzzer.beep_plain)
    | sleep seconds =>
      simp only [host, react, Timeline.wake]
      split <;> exact isOpen

end WindowFront

end ChipEight
