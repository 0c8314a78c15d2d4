import ChipEight.Argument.Typing

/-!
Typed bytes cut from the left into keystrokes. `scan_eq` shows that the pass over them does what
the keystrokes do one after the other.
-/

namespace ChipEight

inductive Keystroke where
  | plain (b : UInt8)
  | escape
  | pair (b : UInt8)
  /-- An escape, `[` or `O`, any number of bytes, and the byte that ends the sequence, if it has
  arrived. -/
  | sequence (opener : UInt8) (body : List UInt8) (closer : Option UInt8)
  deriving DecidableEq, Repr

namespace Keystroke

def bytes : Keystroke → List UInt8
  | plain b => [b]
  | escape => [escapeByte]
  | pair b => [escapeByte, b]
  | sequence opener body closer => escapeByte :: opener :: (body ++ closer.toList)

/-- Bytes cut into keystrokes from the left, where the first of them go on with a keystroke of
which something has been seen. -/
def resume : Progress → List UInt8 → List Keystroke
  | .idle, [] => []
  | .idle, b :: rest =>
    if b = escapeByte then resume .escaped rest else plain b :: resume .idle rest
  | .escaped, [] => [escape]
  | .escaped, b :: rest =>
    if isOpener b then resume (.within b []) rest else pair b :: resume .idle rest
  | .within opener body, [] => [sequence opener body none]
  | .within opener body, b :: rest =>
    if isCloser b then sequence opener body (some b) :: resume .idle rest
    else resume (.within opener (body ++ [b])) rest

def ofBytes (bytes : List UInt8) : List Keystroke :=
  resume .idle bytes

def key? : Keystroke → Option Key
  | plain b => HexPad.keyAt? (character b)
  | _ => none

theorem flatMap_bytes_resume (p : Progress) (bs : List UInt8) :
    (resume p bs).flatMap bytes = p.bytes ++ bs := by
  induction bs generalizing p with
  | nil => cases p <;> simp [resume, Progress.bytes, bytes]
  | cons b bs ih =>
    cases p with
    | idle =>
      by_cases h : b = escapeByte
      · subst h
        simp [resume, ih, Progress.bytes]
      · simp [resume, h, ih, Progress.bytes, bytes]
    | escaped =>
      by_cases h : isOpener b <;> simp [resume, h, ih, Progress.bytes, bytes]
    | within opener body =>
      by_cases h : isCloser b <;> simp [resume, h, ih, Progress.bytes, bytes]

theorem flatMap_bytes_ofBytes (bs : List UInt8) : (ofBytes bs).flatMap bytes = bs :=
  flatMap_bytes_resume .idle bs

section

variable {σ : Type} (strike : Key → σ → σ) (leave : σ → σ)

def act (s : σ) (stroke : Keystroke) : σ :=
  match stroke with
  | escape => leave s
  | stroke => stroke.key?.elim s (strike · s)

theorem act_plain (s : σ) (b : UInt8) :
    act strike leave s (plain b) = (plain b).key?.elim s (strike · s) := rfl

variable (data : Array UInt8)

theorem drop_eq_cons {i : Nat} (inside : i < data.size) :
    data.toList.drop i = data[i] :: data.toList.drop (i + 1) :=
  List.drop_eq_getElem_cons inside

theorem drop_eq_nil {i : Nat} (outside : ¬ i < data.size) : data.toList.drop i = [] :=
  List.drop_eq_nil_of_le (Nat.le_of_not_lt outside)

theorem resume_within_drop (opener : UInt8) (seen : List UInt8) (i : Nat) :
    ∃ body closer, resume (.within opener seen) (data.toList.drop i) =
      .sequence opener body closer :: ofBytes (data.toList.drop (pastCloser data i)) := by
  fun_induction pastCloser data i generalizing seen with
  | case1 i inside closes =>
    refine ⟨seen, some data[i], ?_⟩
    rw [drop_eq_cons data inside, resume, if_pos closes, ofBytes]
  | case2 i inside goesOn ih =>
    obtain ⟨body, closer, ends⟩ := ih (seen ++ [data[i]])
    refine ⟨body, closer, ?_⟩
    rw [drop_eq_cons data inside, resume, if_neg goesOn, ends]
  | case3 i outside =>
    refine ⟨seen, none, ?_⟩
    rw [drop_eq_nil data outside]
    rfl

theorem resume_escaped_drop {i : Nat} (inside : i < data.size) :
    ∃ stroke, (∀ s : σ, act strike leave s stroke = s) ∧
      resume .escaped (data.toList.drop i) =
        stroke :: ofBytes (data.toList.drop (pastSequence data i inside)) := by
  rw [drop_eq_cons data inside, resume, pastSequence]
  split
  next opens =>
    obtain ⟨body, closer, ends⟩ := resume_within_drop data data[i] [] (i + 1)
    exact ⟨.sequence data[i] body closer, fun _ => rfl, ends⟩
  next short => exact ⟨.pair data[i], fun _ => rfl, rfl⟩

/-- The pass over bytes from some place on does what the keystrokes do into which they are cut. -/
theorem scan_eq (i : Nat) (s : σ) :
    scan data strike leave i s = (ofBytes (data.toList.drop i)).foldl (act strike leave) s := by
  fun_induction scan data strike leave i s with
  | case1 i s inside escapes last ih =>
    have ends : ¬ i + 1 < data.size := by omega
    rw [ih, drop_eq_cons data inside, escapes, drop_eq_nil data ends]
    rfl
  | case2 i s inside escapes more _ ih =>
    have goesOn : i + 1 < data.size := by omega
    obtain ⟨stroke, nothing, cut⟩ := resume_escaped_drop strike leave data goesOn
    rw [ih, drop_eq_cons data inside, escapes, ofBytes, ofBytes, resume, if_pos rfl, cut,
      List.foldl_cons, nothing]
    rfl
  | case3 i s inside other none ih =>
    rw [ih, drop_eq_cons data inside, ofBytes, ofBytes, resume, if_neg other, List.foldl_cons,
      act_plain, key?, none, Option.elim_none]
  | case4 i s inside other key struck ih =>
    rw [ih, drop_eq_cons data inside, ofBytes, ofBytes, resume, if_neg other, List.foldl_cons,
      act_plain, key?, struck, Option.elim_some]
  | case5 i s outside =>
    rw [drop_eq_nil data outside]
    rfl

end

end Keystroke

end ChipEight
