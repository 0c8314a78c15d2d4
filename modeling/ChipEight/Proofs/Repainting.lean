import ChipEight.Proofs.Effects
import ChipEight.Proofs.Reachable

/-!
All that is done to a picture says so: afterwards the picture is as it was, mark and all, or it is
marked as one to be shown again.
-/

namespace ChipEight

namespace Framebuffer

variable {width height : Nat} {f g : Framebuffer width height}

/-- A picture is as it was before, or else marked as changed. -/
def Reported (f g : Framebuffer width height) : Prop :=
  g = f ∨ g.dirty = true

theorem Reported.refl (f : Framebuffer width height) : Reported f f :=
  .inl rfl

theorem Reported.trans {h : Framebuffer width height} (first : Reported f g) (rest : Reported g h) :
    Reported f h := by
  rcases rest with rfl | dirty
  · exact first
  · exact .inr dirty

theorem Reported.of_marks (shown : g.cells ≠ f.cells → g.dirty = true)
    (dirty : f.dirty = true → g.dirty = true) : Reported f g := by
  rcases f with ⟨cells, _ | _⟩
  · rcases g with ⟨cells', _ | _⟩
    · by_cases same : cells' = cells
      · exact .inl (by rw [same])
      · exact .inr (shown same)
    · exact .inr rfl
  · exact .inr (dirty rfl)

inductive Change (width height : Nat) where
  | clear
  | set (x : Fin width) (y : Fin height) (lit : Bool)
  | draw (x : Fin width) (y : Fin height) (rows : List UInt8)

def change (f : Framebuffer width height) : Change width height → Framebuffer width height
  | .clear => f.clear
  | .set x y lit =>
    match f.set x.val y.val lit with
    | .ok turned => turned
    | .error _ => f
  | .draw x y rows => Attempt.left (draw x.val y.val rows f)

theorem locate_inside {x y : Nat} (column : x < width) (line : y < height) :
    ∃ i, locate width height x y = .ok i := by
  have inside := row_end_le column line
  have place : (cell? width height (flat width x y)).isSome := by
    rw [flat_natCast]
    simp only [cell?]
    rw [dif_pos (by split <;> omega)]
    rfl
  obtain ⟨i, found⟩ := Option.isSome_iff_exists.mp place
  exact ⟨i, by rw [locate, cellAt, found]⟩

theorem set_inside {x y : Nat} (column : x < width) (line : y < height) (lit : Bool) :
    ∃ i, f.set x y lit = .ok (f.turn i lit) := by
  obtain ⟨i, found⟩ := locate_inside column line
  exact ⟨i, by rw [set, found, Except.map]⟩

theorem InRange.turn (range : f.InRange) (i : Fin (width * height)) (lit : Bool) :
    (f.turn i lit).InRange := by
  intro j
  simp only [value, Framebuffer.turn, Fin.getElem_fin, Vector.getElem_set]
  split
  · cases lit
    · exact .inl rfl
    · exact .inr rfl
  · exact range j

theorem InRange.change (range : f.InRange) (change : Change width height) :
    (f.change change).InRange := by
  cases change with
  | clear => exact .clear f
  | set x y lit =>
    obtain ⟨i, turned⟩ := set_inside (f := f) x.isLt y.isLt lit
    rw [Framebuffer.change, turned]
    exact range.turn i lit
  | draw x y rows => exact InRange.draw _ _ rows f range

theorem dirty_change (f : Framebuffer width height) (change : Change width height) :
    (f.change change).dirty = true := by
  cases change with
  | clear => rfl
  | set x y lit =>
    obtain ⟨i, turned⟩ := set_inside (f := f) x.isLt y.isLt lit
    rw [change, turned]
    rfl
  | draw x y rows =>
    obtain ⟨hit, drawn, laid⟩ := draw_succeeds y rows f x.isLt
    rw [change, laid]
    exact dirty_of_draw laid

end Framebuffer

namespace Machine

variable {m : Machine}

open Framebuffer (Reported)

theorem Confined.reported {i : Instruction} {after : Machine} (confined : Confined i m after) :
    Reported m.screen after.screen :=
  .of_marks confined.shown confined.dirty

theorem execute_reported (i : Instruction) (fits : m.stack.depth ≤ stackDepth) :
    Reported m.screen (Attempt.left (execute i m)).screen := by
  have effect := Effect.execute i fits
  cases outcome : execute i m with
  | ok answer after =>
    rw [outcome] at effect
    cases effect with
    | done confined => exact confined.reported
  | error failure left =>
    rw [outcome] at effect
    cases effect with
    | refused => exact .refl _

theorem step_reported (range : m.InRange) : Reported m.screen (Attempt.left m.step).screen := by
  cases status : m.fault with
  | some fault =>
    rw [step_of_fault status]
    exact .refl _
  | none =>
    cases outcome : m.stop? with
    | some failure =>
      obtain ⟨fault, _, stepped⟩ := step_of_stop range status outcome
      have stalled : m.stalled.screen = m.screen := by
        unfold stalled
        split <;> rfl
      rw [stepped]
      exact .inl stalled
    | none =>
      obtain ⟨i, done, _, executed, stepped, _⟩ := step_of_go range status outcome
      have reported := execute_reported i range.fetched.stack.depth
      rw [executed] at reported
      rw [stepped]
      exact reported

theorem run_reported (range : m.InRange) (n : Nat) :
    Reported m.screen (Attempt.left (m.run n)).screen := by
  induction n generalizing m with
  | zero => exact .refl _
  | succ n ih =>
    have reported := step_reported range
    obtain ⟨answer, after, stepped, kept⟩ := range.step
    rw [stepped] at reported
    rw [Machine.run, stepped]
    cases answer with
    | none => exact reported.trans (ih kept)
    | some fault => exact reported

theorem onMemory_screen {α : Type} (x : Attempt Memory α)
    (P : Framebuffer screenWidth screenHeight → Prop) :
    Attempt.Keeps (fun m => P m.screen) (onMemory x) :=
  .frame x fun _ _ holds => holds

theorem reset_reported (f : Framebuffer screenWidth screenHeight) :
    Attempt.Keeps (fun m => Reported f m.screen) reset := by
  refine .bind (.modify fun _ _ => .inr rfl) fun _ => .bind (onMemory_screen _ _) fun _ => ?_
  intro m reported
  rw [Attempt.get_bind]
  cases m.rom with
  | none => exact reported
  | some program => exact onMemory_screen _ (Reported f) m reported

theorem loadRom_reported (program : List UInt8) (f : Framebuffer screenWidth screenHeight) :
    Attempt.Keeps (fun m => Reported f m.screen) (loadRom program) :=
  .bind (onMemory_screen _ _) fun _ => .modify fun _ reported => reported

theorem perform_reported (range : m.InRange) (action : Action) :
    Reported m.screen (m.perform action).screen := by
  cases action with
  | loadFont data => exact onMemory_screen _ (Reported m.screen) m (.refl _)
  | loadRom program => exact loadRom_reported program _ m (.refl _)
  | reset => exact reset_reported _ m (.refl _)
  | step => exact step_reported range
  | run n => exact run_reported range n
  | execute i => exact execute_reported i range.stack.depth
  | configure | press | release | setDelay | setSound | countDown => exact .refl _

end Machine

end ChipEight
