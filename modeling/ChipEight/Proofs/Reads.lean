import ChipEight.Proofs.Console
import ChipEight.Proofs.Keystrokes
import Mathlib.Logic.Function.Iterate

/-!
A poll reads at most so many bytes and takes them for whole keystrokes. `polls_type_alike_iff` says
exactly when polls do what typing all the bytes at once does.
-/

namespace ChipEight

namespace Keystroke

/-! ### Keystrokes byte by byte -/

def Progress.completed : Progress → UInt8 → Option Keystroke
  | .idle, b => if b = escapeByte then none else some (.plain b)
  | .escaped, b => if isOpener b then none else some (.pair b)
  | .within opener body, b => if isCloser b then some (.sequence opener body (some b)) else none

theorem Progress.completed_ne_escape (p : Progress) (b : UInt8) : p.completed b ≠ some .escape := by
  unfold completed
  cases p with
  | idle | escaped | within =>
    simp only
    split <;> nofun

theorem resume_cons (p : Progress) (b : UInt8) (rest : List UInt8) :
    resume p (b :: rest) = (p.completed b).toList ++ resume (p.after b) rest := by
  cases p with
  | idle | escaped | within =>
    rw [resume, Progress.completed, Progress.after]
    split <;> rfl

def seen (p : Progress) (bytes : List UInt8) : Progress :=
  bytes.foldl Progress.after p

theorem seen_append (p : Progress) (first rest : List UInt8) :
    seen p (first ++ rest) = seen (seen p first) rest :=
  List.foldl_append

theorem resume_append {p : Progress} {first : List UInt8} (whole : seen p first = .idle)
    (rest : List UInt8) : resume p (first ++ rest) = resume p first ++ resume .idle rest := by
  induction first generalizing p with
  | nil =>
    cases whole
    rfl
  | cons b first ih =>
    rw [List.cons_append, resume_cons, resume_cons, ih whole, List.append_assoc]

theorem getLast?_resume_iff {p : Progress} {bytes : List UInt8} :
    (resume p bytes).getLast? = some .escape ↔ seen p bytes = .escaped := by
  induction bytes generalizing p with
  | nil => cases p <;> simp [resume, seen]
  | cons b bytes ih =>
    have last : (p.completed b).toList.getLast? = p.completed b := by
      cases p.completed b <;> rfl
    rw [resume_cons, List.getLast?_append, last, Option.or_eq_some_iff, ih]
    exact or_iff_left fun earlier => p.completed_ne_escape b earlier.2

theorem count_escape_resume (p : Progress) (bytes : List UInt8) :
    (resume p bytes).count .escape = (decide (seen p bytes = .escaped)).toNat := by
  induction bytes generalizing p with
  | nil => cases p <;> rfl
  | cons b bytes ih =>
    have earlier : Keystroke.escape ∉ (p.completed b).toList := fun mem =>
      p.completed_ne_escape b (Option.mem_toList.mp mem)
    rw [resume_cons, List.count_append, List.count_eq_zero_of_not_mem earlier, ih, Nat.zero_add]
    rfl

def keys (bytes : List UInt8) : List Key :=
  (ofBytes bytes).filterMap key?

theorem keys_append {first : List UInt8} (whole : seen .idle first = .idle) (rest : List UInt8) :
    keys (first ++ rest) = keys first ++ keys rest := by
  rw [keys, ofBytes, resume_append whole, List.filterMap_append]
  rfl

end Keystroke

/-! ### What strokes do -/

theorem HexPad.isDown_foldl_press {keys : List Key} {pad : HexPad} {j : Key} :
    (keys.foldl press pad).isDown j ↔ j ∈ keys ∨ pad.isDown j := by
  induction keys generalizing pad with
  | nil => simp
  | cons key keys ih =>
    rw [List.foldl_cons, ih, isDown_press, Bool.or_eq_true, decide_eq_true_iff, List.mem_cons,
      or_left_comm, or_assoc]

namespace Keyboard

theorem mem_renew {held : List (Key × Value)} {key : Key} {time : Value} {entry : Key × Value} :
    entry ∈ renew held key time ↔ entry = (key, time) ∨ entry.1 ≠ key ∧ entry ∈ held := by
  unfold renew
  split
  next some =>
    rw [List.mem_map]
    constructor
    · rintro ⟨e, mem, rfl⟩
      split
      · exact .inl rfl
      · exact .inr ⟨‹_›, mem⟩
    · rintro (rfl | ⟨other, mem⟩)
      · obtain ⟨e, mem, same⟩ := List.any_eq_true.mp some
        exact ⟨e, mem, if_pos (of_decide_eq_true same)⟩
      · exact ⟨entry, mem, if_neg other⟩
  next none =>
    have others : entry ∈ held → entry.1 ≠ key := fun mem same =>
      none (List.any_eq_true.mpr ⟨entry, mem, decide_eq_true same⟩)
    rw [List.mem_append, List.mem_singleton, or_comm, and_iff_right_of_imp others]

theorem mem_foldl_renew {keys : List Key} {held : List (Key × Value)} {time : Value}
    {entry : Key × Value} :
    entry ∈ keys.foldl (renew · · time) held ↔
      (entry.1 ∈ keys ∧ entry.2 = time) ∨ (entry.1 ∉ keys ∧ entry ∈ held) := by
  induction keys generalizing held with
  | nil => simp
  | cons key keys ih =>
    rw [List.foldl_cons, ih, mem_renew, List.mem_cons, Prod.ext_iff]
    by_cases later : entry.1 ∈ keys
    · simp [later]
    · by_cases same : entry.1 = key
      · subst same
        simp [later]
      · simp [later, same]

def holding (k : Keyboard) (keys : List Key) (time : Value) : Keyboard :=
  { k with held := keys.foldl (renew · · time) k.held }

theorem holding_append (k : Keyboard) (first rest : List Key) (time : Value) :
    k.holding (first ++ rest) time = (k.holding first time).holding rest time := by
  rw [holding, List.foldl_append]
  rfl

theorem foldl_act (strokes : List Keystroke) (time : Value) (k : Keyboard) (pad : HexPad)
    (exits : Nat) :
    strokes.foldl (Keystroke.act (strike time) countExit) (k, pad, exits) =
      (k.holding (strokes.filterMap Keystroke.key?) time,
        (strokes.filterMap Keystroke.key?).foldl HexPad.press pad,
        exits + strokes.count .escape) := by
  induction strokes generalizing k pad exits with
  | nil => rfl
  | cons stroke strokes ih =>
    rw [List.foldl_cons]
    cases stroke with
    | escape =>
      rw [List.count_cons_self, Nat.add_comm _ 1, ← Nat.add_assoc]
      exact ih k pad (exits + 1)
    | pair | sequence => exact ih k pad exits
    | plain b =>
      have other : (Keystroke.plain b :: strokes).count .escape = strokes.count .escape := rfl
      rw [other, Keystroke.act_plain]
      cases struck : (Keystroke.plain b).key? with
      | none => rw [List.filterMap_cons_none struck, Option.elim_none, ih]
      | some key =>
        rw [List.filterMap_cons_some struck, Option.elim_some, strike, ih]
        rfl

theorem typeUntil_eq (k : Keyboard) (pad : HexPad) (limit : Value) (bytes : List UInt8) :
    k.typeUntil pad limit bytes =
      (k.holding (Keystroke.keys bytes) limit, (Keystroke.keys bytes).foldl HexPad.press pad,
        (decide (Keystroke.seen .idle bytes = .escaped)).toNat) := by
  rw [typeUntil, Keystroke.scan_eq, foldl_act, List.drop_zero, List.toList_toArray, Nat.zero_add,
    Keystroke.ofBytes, Keystroke.count_escape_resume]
  rfl

theorem expire_of_none_due {k : Keyboard} {now : Value}
    (fresh : ∀ entry ∈ k.held, ¬ isDue now entry) (pad : HexPad) :
    k.expire pad now = (k, pad) := by
  have kept : k.held.filter (fun entry => !isDue now entry) = k.held :=
    List.filter_eq_self.mpr fun entry mem => by simpa using fresh entry mem
  rw [expire, kept, List.filter_eq_nil_iff.mpr fresh]
  rfl

end Keyboard

/-! ### Input that can be read at once -/

/-- All the bytes that an input hands on, however many are asked for. A terminal that waits for
whole lines hands them on one at a time. -/
inductive Input.Offers : Input → List UInt8 → Prop
  | queue (bytes : List UInt8) : Offers (.queue bytes) bytes
  | raw {t : Terminal} (raw : t.mode.canonical = false) : Offers (.terminal t) t.typed.reverse

theorem Input.Offers.read {input : Input} {bytes : List UInt8} (offers : input.Offers bytes)
    (limit : Nat) :
    (input.read limit).1 = bytes.take limit ∧ (input.read limit).2.Offers (bytes.drop limit) := by
  cases offers with
  | queue => exact ⟨rfl, .queue _⟩
  | @raw t raw =>
    let back : Terminal := { t with typed := (t.typed.reverse.drop limit).reverse }
    have left : Input.Offers (.terminal back) back.typed.reverse := .raw raw
    rw [List.reverse_reverse] at left
    simp only [Input.read, Terminal.read, raw, Bool.false_eq_true, if_false, List.splitAt_eq]
    exact ⟨trivial, left⟩

namespace Console

open Keyboard (readLimit isDue)
open Keystroke (keys seen)

variable {c : Console} {now : Number} {d : List UInt8}

theorem type_eq (c : Console) (now : Number) (bytes : List UInt8) :
    c.type now bytes =
      { c with
        keyboard := c.keyboard.holding (keys bytes) (.number (now + c.keyboard.hold))
        pad := (keys bytes).foldl HexPad.press c.pad
        exits := c.exits + (decide (seen .idle bytes = .escaped)).toNat } := by
  simp only [type, Keyboard.type, Keyboard.typeUntil_eq]

/-- The keyboard is reading an input that offers some bytes, at a time at which no key that it holds
is due and none is that goes down now. -/
structure Poised (c : Console) (now : Number) (d : List UInt8) : Prop where
  reading : c.keyboard.reading = true
  fresh : ∀ entry ∈ c.keyboard.held, ¬ isDue (.number now) entry
  later : ∀ key, ¬ isDue (.number now) (key, .number (now + c.keyboard.hold))
  offers : c.input.Offers d

theorem not_isDue_later {time hold : Int} (positive : 0 < hold) (key : Key) :
    ¬ isDue (.number (.whole time)) (key, .number (.whole time + .whole hold)) := by
  have later : ¬ time + hold ≤ time := by omega
  simpa [isDue, Value.compare, Value.toNumber?, Relation.holds] using later

def readAt (d : List UInt8) (m : Nat) : List UInt8 :=
  (d.drop (readLimit * m)).take readLimit

theorem take_succ_read (d : List UInt8) (n : Nat) :
    d.take (readLimit * (n + 1)) = d.take (readLimit * n) ++ readAt d n := by
  rw [Nat.mul_succ, List.take_add, readAt]

theorem readAt_eq_nil {n : Nat} (short : d.length ≤ readLimit * n) : readAt d n = [] := by
  rw [readAt, List.drop_eq_nil_of_le short, List.take_nil]

def keysRead (d : List UInt8) (n : Nat) : List Key :=
  (List.range n).flatMap fun m => keys (readAt d m)

def escapesRead (d : List UInt8) (n : Nat) : Nat :=
  (List.range n).countP fun m => seen .idle (readAt d m) = .escaped

theorem keysRead_succ (d : List UInt8) (n : Nat) :
    keysRead d (n + 1) = keysRead d n ++ keys (readAt d n) := by
  rw [keysRead, List.range_succ, List.flatMap_append, List.flatMap_singleton, keysRead]

theorem escapesRead_succ (d : List UInt8) (n : Nat) :
    escapesRead d (n + 1) =
      escapesRead d n + (decide (seen .idle (readAt d n) = .escaped)).toNat := by
  rw [escapesRead, List.range_succ, List.countP_append, List.countP_singleton, escapesRead]
  cases decide (seen .idle (readAt d n) = .escaped) <;> rfl

theorem Poised.poll_eq (poised : c.Poised now d) :
    c.poll now =
      { c.type now (d.take readLimit) with input := (c.input.read readLimit).2 } := by
  have front := (poised.offers.read readLimit).1
  simp only [poll, Keyboard.poll, Keyboard.refresh, Keyboard.expire_of_none_due poised.fresh,
    Keyboard.available, poised.reading, if_true, front, type]

theorem Poised.poll (poised : c.Poised now d) : (c.poll now).Poised now (d.drop readLimit) := by
  rw [poised.poll_eq, type_eq]
  refine ⟨poised.reading, ?_, poised.later, (poised.offers.read readLimit).2⟩
  intro entry mem
  rcases Keyboard.mem_foldl_renew.mp mem with ⟨_, limit⟩ | ⟨_, earlier⟩
  · have struck := poised.later entry.1
    rwa [← limit] at struck
  · exact poised.fresh entry earlier

structure Polled (c : Console) (now : Number) (d : List UInt8) (n : Nat) (after : Console) :
    Prop where
  keyboard : after.keyboard =
    c.keyboard.holding (keysRead d n) (.number (now + c.keyboard.hold))
  pad : after.pad = (keysRead d n).foldl HexPad.press c.pad
  exits : after.exits = c.exits + escapesRead d n
  poised : after.Poised now (d.drop (readLimit * n))

theorem Polled.poll {n : Nat} {after : Console} (polled : c.Polled now d n after) :
    c.Polled now d (n + 1) (after.poll now) := by
  have typed := polled.poised.poll_eq
  rw [type_eq, polled.keyboard, polled.pad, polled.exits] at typed
  have poised := polled.poised.poll
  rw [List.drop_drop, ← Nat.mul_succ] at poised
  refine ⟨(congrArg Console.keyboard typed).trans ?_, (congrArg Console.pad typed).trans ?_,
    (congrArg Console.exits typed).trans ?_, poised⟩
  · rw [keysRead_succ, Keyboard.holding_append]
    rfl
  · rw [keysRead_succ, List.foldl_append]
    rfl
  · rw [escapesRead_succ, ← Nat.add_assoc]
    rfl

theorem Poised.polls (poised : c.Poised now d) (n : Nat) :
    c.Polled now d n ((Console.poll now)^[n] c) := by
  induction n with
  | zero => exact ⟨rfl, rfl, rfl, poised⟩
  | succ n ih =>
    rw [Function.iterate_succ_apply']
    exact ih.poll

/-! ### When it makes no difference -/

/-- Two consoles cannot be told apart by the keys that are down, the keys that are held and until
when, and how often the escape key was read. -/
structure Alike (a b : Console) : Prop where
  down : ∀ key, a.pad.isDown key = b.pad.isDown key
  held : ∀ entry, entry ∈ a.keyboard.held ↔ entry ∈ b.keyboard.held
  exits : a.exits = b.exits

/-- Polls that read all of some bytes do what typing the bytes at once does, and neither reads the
escape key. -/
def TypedAlike (d : List UInt8) : Prop :=
  ∀ (c : Console) (now : Number) (n : Nat), c.Poised now d → d.length ≤ readLimit * n →
    Alike ((poll now)^[n] c) (c.type now d) ∧ (c.type now d).exits = c.exits

/-- The reads of some bytes, each taken by itself, strike the keys that all the bytes strike, and
none ends with an escape. -/
structure ReadsWell (d : List UInt8) : Prop where
  struck : ∀ key, (∃ m, key ∈ keys (readAt d m)) ↔ key ∈ keys d
  escapes : ∀ m, seen .idle (readAt d m) ≠ .escaped

/-- No read of some bytes ends within a keystroke. -/
def CutBetween (d : List UInt8) : Prop :=
  ∀ n, seen .idle (d.take (readLimit * n)) = .idle

theorem mem_keysRead_iff {n : Nat} (all : d.length ≤ readLimit * n) {key : Key} :
    key ∈ keysRead d n ↔ ∃ m, key ∈ keys (readAt d m) := by
  rw [keysRead, List.mem_flatMap]
  refine exists_congr fun m => and_iff_right_of_imp fun struck => List.mem_range.mpr ?_
  by_contra beyond
  have short : d.length ≤ readLimit * m :=
    Nat.le_trans all (Nat.mul_le_mul_left _ (Nat.le_of_not_lt beyond))
  rw [readAt_eq_nil short] at struck
  cases struck

theorem escapesRead_eq_zero_iff {n : Nat} (all : d.length ≤ readLimit * n) :
    escapesRead d n = 0 ↔ ∀ m, seen .idle (readAt d m) ≠ .escaped := by
  rw [escapesRead, List.countP_eq_zero]
  simp only [decide_eq_true_iff, List.mem_range]
  refine forall_congr' fun m => ⟨fun none escaped => ?_, fun none _ => none⟩
  refine none (Nat.lt_of_not_le fun beyond => ?_) escaped
  have short : d.length ≤ readLimit * m := Nat.le_trans all (Nat.mul_le_mul_left _ beyond)
  rw [readAt_eq_nil short] at escaped
  cases escaped

theorem ReadsWell.typedAlike (well : ReadsWell d) (complete : seen .idle d = .idle) :
    TypedAlike d := by
  intro c now n poised all
  have polled := poised.polls n
  have none := (escapesRead_eq_zero_iff all).mpr well.escapes
  have same : ∀ key, key ∈ keysRead d n ↔ key ∈ keys d := fun key =>
    (mem_keysRead_iff all).trans (well.struck key)
  rw [type_eq, complete]
  refine ⟨⟨fun key => ?_, fun entry => ?_, ?_⟩, rfl⟩
  · rw [polled.pad, Bool.eq_iff_iff, HexPad.isDown_foldl_press, HexPad.isDown_foldl_press, same]
  · rw [polled.keyboard, Keyboard.holding, Keyboard.holding, Keyboard.mem_foldl_renew,
      Keyboard.mem_foldl_renew, same]
  · rw [polled.exits, none]
    rfl

def waiting (d : List UInt8) : Console :=
  { keyboard := { hold := .whole 1, reading := true }, input := .queue d }

theorem waiting_poised (d : List UInt8) : (waiting d).Poised (.whole 0) d where
  reading := rfl
  fresh := nofun
  later := not_isDue_later (by decide)
  offers := .queue d

theorem TypedAlike.readsWell (typed : TypedAlike d) : ReadsWell d := by
  have all : d.length ≤ readLimit * d.length := Nat.le_mul_of_pos_left _ (by decide)
  have polled := (waiting_poised d).polls d.length
  obtain ⟨alike, silent⟩ := typed _ _ _ (waiting_poised d) all
  refine ⟨fun key => ?_, (escapesRead_eq_zero_iff all).mp ?_⟩
  · have down := alike.down key
    rw [polled.pad, type_eq, Bool.eq_iff_iff, HexPad.isDown_foldl_press,
      HexPad.isDown_foldl_press] at down
    have up : ¬ (waiting d).pad.isDown key := by
      simp [waiting, HexPad.isDown, HexPad.cell]
    rwa [or_iff_left up, or_iff_left up, mem_keysRead_iff all] at down
  · have exits := alike.exits.trans silent
    rw [polled.exits] at exits
    exact Nat.add_eq_left.mp exits

theorem CutBetween.seen_readAt (cut : CutBetween d) (m : Nat) :
    seen .idle (readAt d m) = .idle := by
  have next := cut (m + 1)
  rwa [take_succ_read, Keystroke.seen_append, cut m] at next

theorem CutBetween.keysRead_eq (cut : CutBetween d) (n : Nat) :
    keysRead d n = keys (d.take (readLimit * n)) := by
  induction n with
  | zero => rfl
  | succ n ih => rw [keysRead_succ, take_succ_read, Keystroke.keys_append (cut n), ih]

theorem CutBetween.readsWell (cut : CutBetween d) : ReadsWell d := by
  have all : d.length ≤ readLimit * d.length := Nat.le_mul_of_pos_left _ (by decide)
  refine ⟨fun key => ?_, fun m escaped => ?_⟩
  · rw [← mem_keysRead_iff all, cut.keysRead_eq, List.take_of_length_le all]
  · rw [cut.seen_readAt] at escaped
    cases escaped

theorem cutBetween_of_length_le (short : d.length ≤ readLimit) (complete : seen .idle d = .idle) :
    CutBetween d := by
  intro n
  cases n with
  | zero => rfl
  | succ n =>
    have all : d.length ≤ readLimit * (n + 1) :=
      Nat.le_trans short (Nat.le_mul_of_pos_right _ n.succ_pos)
    rwa [List.take_of_length_le all]

/-- Polls do what typing at once does, for bytes that end with a whole keystroke, exactly if the
reads, each taken by itself, strike the same keys and none of them ends with an escape. So it is if
no read ends within a keystroke. -/
theorem polls_type_alike_iff (complete : seen .idle d = .idle) :
    (TypedAlike d ↔ ReadsWell d) ∧ (CutBetween d → TypedAlike d) :=
  ⟨⟨TypedAlike.readsWell, fun well => well.typedAlike complete⟩,
    fun cut => cut.readsWell.typedAlike complete⟩

/-- An arrow key that begins at the last byte of a read is taken for the escape key, and one that is
read at once is not. -/
theorem polls_type_alike_unless_arrow_cut :
    let arrow : List UInt8 := [0x1B, 0x5B, 0x41]
    let late : List UInt8 := List.replicate 63 0x70 ++ arrow
    seen .idle late = .idle ∧ ¬ TypedAlike late ∧
      seen .idle (arrow ++ [0x71]) = .idle ∧ TypedAlike (arrow ++ [0x71]) := by
  intro arrow late
  have whole : seen .idle late = .idle := by decide
  have whole' : seen .idle (arrow ++ [0x71]) = .idle := by decide
  refine ⟨whole, fun typed => ?_, whole', ?_⟩
  · have well := (polls_type_alike_iff whole).1.mp typed
    exact well.escapes 0 (by decide)
  · exact (polls_type_alike_iff whole').2 (cutBetween_of_length_le (by decide) whole')

end Console

end ChipEight
