import ChipEight.Failure

/-!
An operation may fail when it is half done, and what it has changed by then stays changed. So the
state that an attempt leaves is part of what it comes to, whether it fails or not.
-/

namespace ChipEight

abbrev Attempt (σ α : Type) := EStateM Failure σ α

instance {σ : Type} : MonadLift (Except Failure) (EStateM Failure σ) where
  monadLift
    | .ok answer => pure answer
    | .error failure => throw failure

namespace Attempt

variable {σ τ α β : Type}

def within (part : τ → σ) (put : τ → σ → τ) (attempt : Attempt σ α) : Attempt τ α := fun whole =>
  match attempt (part whole) with
  | .ok answer left => .ok answer (put whole left)
  | .error failure left => .error failure (put whole left)

def reply : EStateM.Result Failure σ α → Except Failure α × σ
  | .ok answer left => (.ok answer, left)
  | .error failure left => (.error failure, left)

def left : EStateM.Result Failure σ α → σ
  | .ok _ s | .error _ s => s

@[simp] theorem left_ok (a : α) (s : σ) : left (.ok a s : EStateM.Result Failure σ α) = s := rfl

@[simp] theorem left_error (failure : Failure) (s : σ) :
    left (.error failure s : EStateM.Result Failure σ α) = s := rfl

theorem reply_snd (outcome : EStateM.Result Failure σ α) : (reply outcome).2 = left outcome := by
  cases outcome <;> rfl

/-! ### What the steps of an attempt do -/

@[simp] theorem pure_apply (a : α) (s : σ) : (pure a : Attempt σ α) s = .ok a s := rfl

@[simp] theorem throw_apply (failure : Failure) (s : σ) :
    (throw failure : Attempt σ α) s = .error failure s := rfl

@[simp] theorem get_apply (s : σ) : (get : Attempt σ σ) s = .ok s s := rfl

@[simp] theorem set_apply (s t : σ) : (set t : Attempt σ PUnit) s = .ok ⟨⟩ t := rfl

@[simp] theorem modify_apply (f : σ → σ) (s : σ) :
    (modify f : Attempt σ PUnit) s = .ok ⟨⟩ (f s) := rfl

theorem get_bind (f : σ → Attempt σ α) (s : σ) : ((get : Attempt σ σ) >>= f) s = f s s := rfl

theorem bind_of_ok {x : Attempt σ α} {f : α → Attempt σ β} {s t : σ} {a : α} (h : x s = .ok a t) :
    (x >>= f) s = f a t := by
  simp only [bind, EStateM.bind, h]

theorem bind_of_error {x : Attempt σ α} {f : α → Attempt σ β} {s t : σ} {failure : Failure}
    (h : x s = .error failure t) : (x >>= f) s = .error failure t := by
  simp only [bind, EStateM.bind, h]

theorem within_of_ok {part : τ → σ} {put : τ → σ → τ} {x : Attempt σ α} {whole : τ} {left : σ}
    {a : α} (h : x (part whole) = .ok a left) : within part put x whole = .ok a (put whole left) := by
  rw [within, h]

theorem within_of_error {part : τ → σ} {put : τ → σ → τ} {x : Attempt σ α} {whole : τ} {left : σ}
    {failure : Failure} (h : x (part whole) = .error failure left) :
    within part put x whole = .error failure (put whole left) := by
  rw [within, h]

end Attempt

end ChipEight
