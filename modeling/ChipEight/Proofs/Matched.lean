import ChipEight.Attempt

/-!
The same attempt on two related states. Attempts that do not look at what sets the states apart come
to the same and leave related states.
-/

namespace ChipEight

open EStateM (Result)

namespace Attempt

variable {σ τ α β : Type} {R : σ → σ → Prop}

/-- Both give the same answer or fail in the same way, and leave related states. -/
inductive Matched (R : σ → σ → Prop) : Result Failure σ α → Result Failure σ α → Prop
  | ok {a : α} {s t : σ} (related : R s t) : Matched R (.ok a s) (.ok a t)
  | error {failure : Failure} {s t : σ} (related : R s t) :
    Matched R (.error failure s) (.error failure t)

namespace Matched

variable {x y : Result Failure σ α}

theorem left (matched : Matched R x y) : R (left x) (left y) := by
  cases matched with
  | ok related => exact related
  | error related => exact related

theorem reply (matched : Matched R x y) : (reply x).1 = (reply y).1 := by
  cases matched with
  | ok => rfl
  | error => rfl

theorem lift {s t : σ} (related : R s t) (x : Except Failure α) :
    Matched R ((monadLift x : Attempt σ α) s) ((monadLift x : Attempt σ α) t) := by
  cases x with
  | ok a => exact .ok related
  | error failure => exact .error related

theorem bind {x : Attempt σ α} {f : α → Attempt σ β} {s t : σ} (first : Matched R (x s) (x t))
    (rest : ∀ a u v, R u v → Matched R (f a u) (f a v)) :
    Matched R ((x >>= f) s) ((x >>= f) t) := by
  generalize here : x s = u at first
  generalize there : x t = v at first
  cases first with
  | ok related =>
    rw [bind_of_ok here, bind_of_ok there]
    exact rest _ _ _ related
  | error related =>
    rw [bind_of_error here, bind_of_error there]
    exact .error related

theorem within {part : τ → σ} {put : τ → σ → τ} {R : τ → τ → Prop} {s t : τ} (x : Attempt σ α)
    (same : part s = part t) (related : ∀ p, R (put s p) (put t p)) :
    Matched R (Attempt.within part put x s) (Attempt.within part put x t) := by
  cases outcome : x (part s) with
  | ok a left =>
    rw [within_of_ok outcome, within_of_ok (same ▸ outcome)]
    exact .ok (related left)
  | error failure left =>
    rw [within_of_error outcome, within_of_error (same ▸ outcome)]
    exact .error (related left)

end Matched

end Attempt

end ChipEight
