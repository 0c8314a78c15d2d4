import ChipEight.Attempt

/-!
Attempts that keep a property are put together from such attempts. So what an operation preserves
follows from what its steps preserve, however far it gets.
-/

namespace ChipEight

namespace Attempt

variable {σ τ α β : Type} {P : σ → Prop}

/-- The state that the attempt leaves has a property if the state before had it, whether the attempt
succeeds or fails. -/
def Keeps (P : σ → Prop) (x : Attempt σ α) : Prop :=
  ∀ s, P s → P (left (x s))

namespace Keeps

theorem pure (a : α) : Keeps P (Pure.pure a : Attempt σ α) :=
  fun _ holds => holds

theorem modify {f : σ → σ} (kept : ∀ s, P s → P (f s)) :
    Keeps P (modify f : Attempt σ PUnit) :=
  kept

theorem lift (x : Except Failure α) : Keeps P (monadLift x : Attempt σ α) := by
  intro s holds
  cases x <;> exact holds

theorem bind {x : Attempt σ α} {f : α → Attempt σ β} (first : Keeps P x)
    (rest : ∀ a, Keeps P (f a)) : Keeps P (x >>= f) := by
  intro s holds
  have middle := first s holds
  cases outcome : x s with
  | ok a t =>
    rw [outcome] at middle
    rw [bind_of_ok outcome]
    exact rest a t middle
  | error failure t =>
    rw [outcome] at middle
    rw [bind_of_error outcome]
    exact middle

theorem within {part : τ → σ} {put : τ → σ → τ} {Q : τ → Prop} {x : Attempt σ α}
    (share : ∀ whole, Q whole → P (part whole))
    (back : ∀ whole s, Q whole → P s → Q (put whole s)) (kept : Keeps P x) :
    Keeps Q (Attempt.within part put x) := by
  intro whole holds
  have after := kept _ (share whole holds)
  cases outcome : x (part whole) with
  | ok a s =>
    rw [outcome] at after
    rw [within_of_ok outcome]
    exact back whole s holds after
  | error failure s =>
    rw [outcome] at after
    rw [within_of_error outcome]
    exact back whole s holds after

theorem frame {part : τ → σ} {put : τ → σ → τ} {Q : τ → Prop} (x : Attempt σ α)
    (back : ∀ whole s, Q whole → Q (put whole s)) : Keeps Q (Attempt.within part put x) :=
  .within (P := fun _ => True) (fun _ _ => trivial) (fun whole s holds _ => back whole s holds)
    fun _ _ => trivial

end Keeps

end Attempt

end ChipEight
