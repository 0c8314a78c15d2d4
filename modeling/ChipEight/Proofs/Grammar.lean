import ChipEight.Proofs.Reads

/-!
Every row of bytes splits into keystrokes in exactly one way, and what is typed does what its
keystrokes say.
-/

namespace ChipEight

namespace Keystroke

/-- Bytes split into keystrokes from the left. Only the last keystroke may be the escape key or a
sequence that has not ended. -/
inductive Splits : List UInt8 → List Keystroke → Prop
  | nil : Splits [] []
  | escape : Splits [escapeByte] [.escape]
  | plain {b : UInt8} {rest : List UInt8} {strokes : List Keystroke} (other : b ≠ escapeByte)
    (split : Splits rest strokes) : Splits (b :: rest) (.plain b :: strokes)
  | pair {b : UInt8} {rest : List UInt8} {strokes : List Keystroke} (short : ¬ isOpener b)
    (split : Splits rest strokes) : Splits (escapeByte :: b :: rest) (.pair b :: strokes)
  | unended {opener : UInt8} {body : List UInt8} (opens : isOpener opener)
    (inside : ∀ b ∈ body, ¬ isCloser b) :
    Splits (escapeByte :: opener :: body) [.sequence opener body none]
  | sequence {opener closer : UInt8} {body rest : List UInt8} {strokes : List Keystroke}
    (opens : isOpener opener) (inside : ∀ b ∈ body, ¬ isCloser b) (closes : isCloser closer)
    (split : Splits rest strokes) :
    Splits (escapeByte :: opener :: (body ++ closer :: rest))
      (.sequence opener body (some closer) :: strokes)

variable {bytes : List UInt8} {strokes : List Keystroke}

theorem resume_within {opener : UInt8} {seen body : List UInt8} (inside : ∀ b ∈ body, ¬ isCloser b)
    (rest : List UInt8) :
    resume (.within opener seen) (body ++ rest) = resume (.within opener (seen ++ body)) rest := by
  induction body generalizing seen with
  | nil => rw [List.nil_append, List.append_nil]
  | cons b body ih =>
    obtain ⟨first, others⟩ := List.forall_mem_cons.mp inside
    rw [List.cons_append, resume, if_neg first, ih others, List.append_assoc]
    rfl

theorem Splits.eq_ofBytes (split : Splits bytes strokes) : ofBytes bytes = strokes := by
  unfold ofBytes
  induction split with
  | nil | escape => rfl
  | plain other _ ih => rw [resume, if_neg other, ih]
  | pair short _ ih => rw [resume, if_pos rfl, resume, if_neg short, ih]
  | @unended opener body opens inside =>
    have ends : resume (.within opener []) (body ++ []) = resume (.within opener body) [] :=
      resume_within inside []
    rw [List.append_nil] at ends
    rw [resume, if_pos rfl, resume, if_pos opens, ends]
    rfl
  | sequence opens inside closes _ ih =>
    rw [resume, if_pos rfl, resume, if_pos opens, resume_within inside, resume, if_pos closes, ih]
    rfl

def Progress.Valid : Progress → Prop
  | .idle | .escaped => True
  | .within opener body => isOpener opener ∧ ∀ b ∈ body, ¬ isCloser b

theorem splits_resume {p : Progress} (valid : p.Valid) (bytes : List UInt8) :
    Splits (p.bytes ++ bytes) (resume p bytes) := by
  -- along the bytes, with what has been seen of the keystroke that they go on with
  induction bytes generalizing p with
  | nil =>
    cases p with
    | idle => exact .nil
    | escaped => exact .escape
    | within opener body =>
      rw [List.append_nil]
      exact .unended valid.1 valid.2
  | cons b rest ih =>
    have next : Splits rest (resume .idle rest) := ih (p := .idle) trivial
    cases p with
    | idle =>
      rw [resume]
      split
      next escapes =>
        subst escapes
        exact ih (p := .escaped) trivial
      next other => exact .plain other next
    | escaped =>
      rw [resume]
      split
      next opens => exact ih (p := .within b []) ⟨opens, List.forall_mem_nil _⟩
      next short => exact .pair short next
    | within opener body =>
      obtain ⟨opens, inside⟩ := valid
      rw [resume]
      split
      next closes => exact .sequence opens inside closes next
      next goesOn =>
        have longer : ∀ a ∈ body ++ [b], ¬ isCloser a :=
          List.forall_mem_append.mpr ⟨inside, List.forall_mem_singleton.mpr goesOn⟩
        have split := ih (p := .within opener (body ++ [b])) ⟨opens, longer⟩
        simpa [Progress.bytes] using split

theorem splits_iff : Splits bytes strokes ↔ strokes = ofBytes bytes := by
  constructor
  · intro split
    exact split.eq_ofBytes.symm
  · rintro rfl
    exact splits_resume (p := .idle) trivial bytes

/-- The key of the pad in the place of a typewriter's key, with or without the shift key. -/
def keyInPlace? (b : UInt8) : Option Key :=
  Option.map Key.ofInt <| match (Char.ofNat b.toNat).toLower with
  | '1' => some 0x1 | '2' => some 0x2 | '3' => some 0x3 | '4' => some 0xC
  | 'q' => some 0x4 | 'w' => some 0x5 | 'e' => some 0x6 | 'r' => some 0xD
  | 'a' => some 0x7 | 's' => some 0x8 | 'd' => some 0x9 | 'f' => some 0xE
  | 'z' => some 0xA | 'x' => some 0x0 | 'c' => some 0xB | 'v' => some 0xF
  | _ => none

def struck (strokes : List Keystroke) : List Key :=
  strokes.filterMap fun
    | .plain b => keyInPlace? b
    | _ => none

theorem keyAt?_character (b : UInt8) : HexPad.keyAt? (character b) = keyInPlace? b := by
  unfold keyInPlace? character
  generalize (Char.ofNat b.toNat).toLower = c
  split
  case h_17 => simp_all [HexPad.keyAt?, HexPad.typewriter, eq_comm]
  all_goals rfl

theorem struck_eq_filterMap (strokes : List Keystroke) :
    struck strokes = strokes.filterMap key? := by
  unfold struck
  congr
  funext stroke
  cases stroke with
  | plain b => exact (keyAt?_character b).symm
  | escape | pair | sequence => rfl

end Keystroke

namespace Console

open Keystroke (Splits struck)

/-- What becomes of a console when some keystrokes are typed at some time. -/
structure Strokes (c : Console) (now : Number) (strokes : List Keystroke) (after : Console) :
    Prop where
  pressed : after.pad = (struck strokes).foldl HexPad.press c.pad
  renewed : after.keyboard =
    c.keyboard.holding (struck strokes) (.number (now + c.keyboard.hold))
  held : ∀ key time, (key, time) ∈ after.keyboard.held ↔
    (key ∈ struck strokes ∧ time = .number (now + c.keyboard.hold)) ∨
      (key ∉ struck strokes ∧ (key, time) ∈ c.keyboard.held)
  exits : after.exits = c.exits + if strokes.getLast? = some .escape then 1 else 0
  input : after.input = c.input

theorem type_strokes (c : Console) (now : Number) (bytes : List UInt8) :
    c.Strokes now (Keystroke.ofBytes bytes) (c.type now bytes) := by
  have same : struck (Keystroke.ofBytes bytes) = Keystroke.keys bytes :=
    Keystroke.struck_eq_filterMap _
  rw [type_eq]
  refine ⟨?_, ?_, fun key time => ?_, ?_, rfl⟩
  · rw [same]
  · rw [same]
  · rw [same]
    exact Keyboard.mem_foldl_renew
  · simp only [Keystroke.ofBytes, Keystroke.getLast?_resume_iff]
    by_cases ends : Keystroke.seen .idle bytes = .escaped
    · rw [if_pos ends, decide_eq_true ends]
      rfl
    · rw [if_neg ends, decide_eq_false ends]
      rfl

/-- Bytes split into keystrokes in one way only, and typing them strikes the keys that the keystrokes
of a single byte stand for, one after the other, and is an exit if the last keystroke is the escape
key. -/
theorem type_follows_grammar (c : Console) (now : Number) (bytes : List UInt8) :
    ∃ strokes, (∀ other, Splits bytes other ↔ other = strokes) ∧
      strokes.flatMap Keystroke.bytes = bytes ∧ c.Strokes now strokes (c.type now bytes) :=
  ⟨Keystroke.ofBytes bytes, fun _ => Keystroke.splits_iff, Keystroke.flatMap_bytes_ofBytes bytes,
    c.type_strokes now bytes⟩

/-- The letter q small and large, the up arrow, the digit 1 and the escape key. The byte of the arrow
that is a letter strikes nothing. -/
theorem type_follows_grammar_of_arrow :
    let c : Console := { keyboard := { hold := .whole 1 }, input := .queue [] }
    let after := c.type (.whole 0) [0x71, 0x51, 0x1B, 0x5B, 0x41, 0x31, 0x1B]
    after.pad.isDown 0x4 ∧ ¬ after.pad.isDown 0x7 ∧ after.pad.isDown 0x1 ∧
      after.keyboard.held = [(0x4, .number (.whole 1)), (0x1, .number (.whole 1))] ∧
      after.exits = 1 := by
  intro c after
  obtain ⟨strokes, unique, -, typed⟩ :=
    c.type_follows_grammar (.whole 0) [0x71, 0x51, 0x1B, 0x5B, 0x41, 0x31, 0x1B]
  obtain rfl : [.plain 0x71, .plain 0x51, .sequence 0x5B [] (some 0x41), .plain 0x31, .escape] =
      strokes := (unique _).mp (Keystroke.splits_iff.mpr rfl)
  have down : ∀ key, after.pad.isDown key ↔ key = 0x4 ∨ key = 0x1 := by
    rw [typed.pressed]
    decide
  refine ⟨(down _).mpr (.inl rfl), fun struck => ?_, (down _).mpr (.inr rfl), ?_, typed.exits⟩
  · have other : ¬ ((0x7 : Key) = 0x4 ∨ (0x7 : Key) = 0x1) := by decide
    exact other ((down _).mp struck)
  · rw [typed.renewed]
    rfl

end Console

end ChipEight
