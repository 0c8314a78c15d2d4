import Mathlib.Data.List.Induction

/-!
A history is the list of what has happened, the last event at its end. `Since` says of a history
that something began and has lasted until now.
-/

namespace ChipEight

variable {α : Type} {begins lasts : List α → α → Prop} {history before later : List α}
  {event first : α}

/-- Some event began what every later event has let last. What an event does is told by what
happened before it and the event itself. -/
def Since (begins lasts : List α → α → Prop) (history : List α) : Prop :=
  ∃ before first later, history = before ++ first :: later ∧ begins before first ∧
    ∀ middle next rest, later = middle ++ next :: rest → lasts (before ++ first :: middle) next

def Once (happens : List α → α → Prop) (history : List α) : Prop :=
  Since happens (fun _ _ => True) history

theorem concat_eq_append_cons :
    history ++ [event] = before ++ first :: later ↔
      (history = before ∧ event = first ∧ later = []) ∨
        ∃ rest, history = before ++ first :: rest ∧ later = rest ++ [event] := by
  constructor
  · intro order
    rcases List.eq_nil_or_concat later with rfl | ⟨rest, last, rfl⟩
    · obtain ⟨rfl, same⟩ := List.append_inj' order rfl
      cases same
      exact .inl ⟨rfl, rfl, rfl⟩
    · rw [List.concat_eq_append, ← List.cons_append, ← List.append_assoc] at order
      obtain ⟨rfl, same⟩ := List.append_inj' order rfl
      cases same
      exact .inr ⟨rest, rfl, List.concat_eq_append⟩
  · rintro (⟨rfl, rfl, rfl⟩ | ⟨rest, rfl, rfl⟩)
    · rfl
    · rw [List.append_assoc, List.cons_append]

theorem not_since_nil : ¬ Since begins lasts [] := by
  rintro ⟨before, first, later, order, _⟩
  cases before <;> cases order

theorem not_once_nil {happens : List α → α → Prop} : ¬ Once happens [] :=
  not_since_nil

theorem since_concat :
    Since begins lasts (history ++ [event]) ↔
      begins history event ∨ Since begins lasts history ∧ lasts history event := by
  constructor
  · rintro ⟨before, first, later, order, begun, lasting⟩
    rcases concat_eq_append_cons.mp order with ⟨rfl, rfl, rfl⟩ | ⟨rest, rfl, rfl⟩
    · exact .inl begun
    · refine .inr ⟨⟨before, first, rest, rfl, begun, ?_⟩, lasting rest event [] rfl⟩
      rintro middle next rest rfl
      exact lasting middle next (rest ++ [event]) (List.append_assoc middle (next :: rest) [event])
  · rintro (begun | ⟨⟨before, first, later, rfl, begun, lasting⟩, last⟩)
    · refine ⟨history, event, [], rfl, begun, ?_⟩
      intro middle next rest order
      cases middle <;> cases order
    · refine ⟨before, first, later ++ [event], List.append_assoc before (first :: later) [event],
        begun, ?_⟩
      intro middle next rest order
      rcases concat_eq_append_cons.mp order with ⟨rfl, rfl, rfl⟩ | ⟨rest, earlier, _⟩
      · exact last
      · exact lasting middle next rest earlier

theorem once_concat {happens : List α → α → Prop} :
    Once happens (history ++ [event]) ↔ happens history event ∨ Once happens history := by
  unfold Once
  rw [since_concat, and_true]

theorem foldl_induction {σ : Type} {motive : List α → σ → Prop} {step : σ → α → σ} {start : σ}
    (initially : motive [] start)
    (preserved : ∀ history s event, motive history s → motive (history ++ [event]) (step s event))
    (history : List α) : motive history (history.foldl step start) := by
  induction history using List.reverseRecOn with
  | nil => exact initially
  | append_singleton history event ih =>
    rw [List.foldl_append]
    exact preserved history _ event ih

end ChipEight
