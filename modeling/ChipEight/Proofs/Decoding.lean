import ChipEight.Instruction.Decode
import Mathlib.Data.Fin.Basic
import Mathlib.Data.List.Forall2
import Mathlib.Data.Nat.Bitwise

/-!
Each row of the decoding table is the form of its operation. No word fits two forms, so the order of
the rows does not matter.
-/

namespace ChipEight

namespace FormDigit

def maskDigit : FormDigit → Nat
  | fixed _ => 15
  | _ => 0

def patternDigit : FormDigit → Nat
  | fixed d => d
  | _ => 0

theorem land_maskDigit (f : FormDigit) {d : Nat} (digit : d < 16) :
    d &&& f.maskDigit = f.patternDigit ↔ f.Allows d := by
  cases f with
  | fixed e =>
    have all : d &&& 15 = d := (Nat.and_two_pow_sub_one_eq_mod d 4).trans (Nat.mod_eq_of_lt digit)
    simp only [maskDigit, patternDigit, Allows, all]
  | _ => simp only [maskDigit, patternDigit, Allows, Nat.and_zero]

theorem maskDigit_lt (f : FormDigit) : f.maskDigit < 16 := by
  cases f with
  | fixed d => exact Nat.lt_succ_self 15
  | _ => decide

theorem patternDigit_lt (f : FormDigit) : f.patternDigit < 16 := by
  cases f with
  | fixed d => exact d.isLt
  | _ => decide

def IsFree : FormDigit → Prop
  | fixed _ => False
  | _ => True

theorem allows_fixed {d : Nat} {e : Fin 16} : (fixed e).Allows d ↔ d = e := Iff.rfl

theorem IsFree.allows_iff {f : FormDigit} (free : f.IsFree) {d : Nat} : f.Allows d ↔ True := by
  cases f with
  | fixed e => exact free.elim
  | _ => exact Iff.rfl

def Clash : FormDigit → FormDigit → Prop
  | fixed d, fixed e => d ≠ e
  | _, _ => False

instance : (f g : FormDigit) → Decidable (f.Clash g)
  | fixed d, fixed e => inferInstanceAs (Decidable (d ≠ e))
  | fixed _, x | fixed _, y | fixed _, n | fixed _, k => inferInstanceAs (Decidable False)
  | x, _ | y, _ | n, _ | k, _ => inferInstanceAs (Decidable False)

theorem Clash.not_allows {f g : FormDigit} {d : Nat} (clash : f.Clash g) (allowed : f.Allows d) :
    ¬ g.Allows d := by
  cases f with
  | fixed a =>
    cases g with
    | fixed b =>
      intro same
      exact clash (Fin.ext (allowed.symm.trans same))
    | _ => exact clash.elim
  | _ => exact clash.elim

end FormDigit

namespace Instruction

/-! ### Numerals -/

/-- The number of a row of hexadecimal digits behind the digits of `a`. -/
def numeral (a : Nat) (ds : List Nat) : Nat :=
  ds.foldl (fun a d => 16 * a + d) a

theorem land_append {a b d e : Nat} (hd : d < 16) (he : e < 16) :
    (16 * a + d) &&& (16 * b + e) = 16 * (a &&& b) + (d &&& e) := by
  have small : d &&& e < 2 ^ 4 := Nat.and_lt_two_pow d he
  apply Nat.eq_of_testBit_eq
  intro i
  simp only [Nat.testBit_and, Nat.testBit_two_pow_mul_add a (show d < 2 ^ 4 from hd) i,
    Nat.testBit_two_pow_mul_add b (show e < 2 ^ 4 from he) i,
    Nat.testBit_two_pow_mul_add (a &&& b) small i, show 16 = 2 ^ 4 from rfl]
  split <;> rfl

theorem numeral_land {ds es : List Nat} (a b : Nat) (lengths : ds.length = es.length)
    (hd : ∀ d ∈ ds, d < 16) (he : ∀ e ∈ es, e < 16) :
    numeral a ds &&& numeral b es = numeral (a &&& b) (List.zipWith (· &&& ·) ds es) := by
  induction ds generalizing es a b with
  | nil =>
    cases es with
    | nil => rfl
    | cons e es => cases lengths
  | cons d ds ih =>
    cases es with
    | nil => cases lengths
    | cons e es =>
      have step := ih (16 * a + d) (16 * b + e) (Nat.succ.inj lengths)
        (fun d' member => hd d' (List.mem_cons_of_mem _ member))
        (fun e' member => he e' (List.mem_cons_of_mem _ member))
      rw [land_append (hd d List.mem_cons_self) (he e List.mem_cons_self)] at step
      exact step

theorem numeral_inj {ds es : List Nat} {a b : Nat} (lengths : ds.length = es.length)
    (hd : ∀ d ∈ ds, d < 16) (he : ∀ e ∈ es, e < 16) (same : numeral a ds = numeral b es) :
    a = b ∧ ds = es := by
  induction ds generalizing es a b with
  | nil =>
    cases es with
    | nil => exact ⟨same, rfl⟩
    | cons e es => cases lengths
  | cons d ds ih =>
    cases es with
    | nil => cases lengths
    | cons e es =>
      obtain ⟨heads, tails⟩ : 16 * a + d = 16 * b + e ∧ ds = es := ih (Nat.succ.inj lengths)
        (fun d' member => hd d' (List.mem_cons_of_mem _ member))
        (fun e' member => he e' (List.mem_cons_of_mem _ member)) same
      have first := hd d List.mem_cons_self
      have second := he e List.mem_cons_self
      obtain ⟨rfl, rfl⟩ : a = b ∧ d = e := by omega
      exact ⟨rfl, by rw [tails]⟩

theorem wordOf_lt (opcode : Int) : wordOf opcode < 0x10000 := by
  unfold wordOf
  omega

theorem wordOf_natCast {word : Nat} (small : word < 0x10000) : wordOf word = word := by
  unfold wordOf
  omega

theorem digits_lt (opcode : Int) : ∀ d ∈ digits opcode, d < 16 := by
  have small := wordOf_lt opcode
  simp only [digits_eq, List.mem_cons, List.not_mem_nil, or_false]
  omega

theorem numeral_digits (opcode : Int) : numeral 0 (digits opcode) = wordOf opcode := by
  simp only [numeral, digits_eq, List.foldl_cons, List.foldl_nil]
  omega

end Instruction

/-! ### The table in forms -/

namespace Operation

/-- The digits of an opcode are allowed by the form. -/
def Fits (o : Operation) (opcode : Int) : Prop :=
  List.Forall₂ FormDigit.Allows o.form (Instruction.digits opcode)

theorem form_length (o : Operation) : o.form.length = 4 := by
  cases o <;> rfl

theorem mem_all (o : Operation) : o ∈ all := by
  cases o <;> decide

theorem forms_clash : ∀ o ∈ all, ∀ p ∈ all, o ≠ p →
    (List.zip o.form p.form).any (fun (f, g) => decide (f.Clash g)) = true := by
  decide

theorem Fits.unique {o p : Operation} {opcode : Int} (first : o.Fits opcode)
    (second : p.Fits opcode) : o = p := by
  by_contra differ
  -- in some place both forms have a digit of their own, and a word has only one there
  obtain ⟨⟨f, g⟩, place, clash⟩ := List.any_eq_true.mp (forms_clash o o.mem_all p p.mem_all differ)
  obtain ⟨k, bound, entry⟩ := List.mem_iff_getElem.mp place
  simp only [List.length_zip, Nat.lt_min] at bound
  rw [List.getElem_zip, Prod.mk.injEq] at entry
  have digit : k < (Instruction.digits opcode).length := first.length_eq ▸ bound.1
  have allowed := first.get bound.1 digit
  have allowed' := second.get bound.2 digit
  simp only [List.get_eq_getElem, entry.1, entry.2] at allowed allowed'
  exact (of_decide_eq_true clash).not_allows allowed allowed'

end Operation

namespace Instruction

def Row.Matches (row : Row) (word : Nat) : Prop :=
  word &&& row.mask = row.pattern

instance (row : Row) (word : Nat) : Decidable (row.Matches word) :=
  inferInstanceAs (Decidable (_ = _))

def Row.ofForm (o : Operation) : Row where
  mask := numeral 0 (o.form.map FormDigit.maskDigit)
  pattern := numeral 0 (o.form.map FormDigit.patternDigit)
  operation := o

theorem table_eq_forms : table = Operation.all.map Row.ofForm := by
  decide

theorem zipWith_land_masks {form : List FormDigit} {ds : List Nat}
    (lengths : form.length = ds.length) (digits : ∀ d ∈ ds, d < 16) :
    List.zipWith (· &&& ·) ds (form.map FormDigit.maskDigit) = form.map FormDigit.patternDigit ↔
      List.Forall₂ FormDigit.Allows form ds := by
  induction form generalizing ds with
  | nil =>
    cases ds with
    | nil => simp only [List.map_nil, List.zipWith_nil_left, List.Forall₂.nil]
    | cons d ds => cases lengths
  | cons f form ih =>
    cases ds with
    | nil => cases lengths
    | cons d ds =>
      have rest := ih (Nat.succ.inj lengths) fun d' member =>
        digits d' (List.mem_cons_of_mem _ member)
      simp only [List.map_cons, List.zipWith_cons_cons, List.cons.injEq, List.forall₂_cons, rest,
        f.land_maskDigit (digits d List.mem_cons_self)]

theorem matches_ofForm (o : Operation) (opcode : Int) :
    (Row.ofForm o).Matches (wordOf opcode) ↔ o.Fits opcode := by
  have masks : ∀ d ∈ o.form.map FormDigit.maskDigit, d < 16 := by
    intro d member
    obtain ⟨f, _, rfl⟩ := List.mem_map.mp member
    exact f.maskDigit_lt
  have patterns : ∀ d ∈ o.form.map FormDigit.patternDigit, d < 16 := by
    intro d member
    obtain ⟨f, _, rfl⟩ := List.mem_map.mp member
    exact f.patternDigit_lt
  have lengths : o.form.length = (digits opcode).length := o.form_length
  rw [Operation.Fits, ← zipWith_land_masks lengths (digits_lt opcode), Row.Matches, Row.ofForm,
    ← numeral_digits, numeral_land 0 0 (by rw [List.length_map, lengths]) (digits_lt opcode) masks]
  constructor
  · intro same
    have products : ∀ d ∈ List.zipWith (· &&& ·) (digits opcode) (o.form.map FormDigit.maskDigit),
        d < 16 := by
      intro d member
      obtain ⟨k, bound, rfl⟩ := List.mem_iff_getElem.mp member
      rw [List.getElem_zipWith]
      exact Nat.and_lt_two_pow _ (show _ < 2 ^ 4 from masks _ (List.getElem_mem _))
    exact (numeral_inj (by simp [lengths]) products patterns same).2
  · intro same
    rw [same, Nat.and_zero]

/-! ### Decoding -/

/-- What is decoded is the low word of the opcode and the operation whose form it fits. -/
theorem decode_eq_ok_iff {opcode : Int} {i : Instruction} :
    decode opcode = .ok i ↔ i.word = wordOf opcode ∧ i.operation.Fits opcode := by
  cases found : table.find? fun row => wordOf opcode &&& row.mask == row.pattern with
  | some row =>
    have matched := List.find?_some found
    have member := List.mem_of_find?_eq_some found
    rw [table_eq_forms] at member
    obtain ⟨o, _, rfl⟩ := List.mem_map.mp member
    have fits : o.Fits opcode := (matches_ofForm o opcode).mp (beq_iff_eq.mp matched)
    simp only [decode, found]
    constructor
    · rintro ⟨⟩
      exact ⟨rfl, fits⟩
    · rintro ⟨word, other⟩
      have same : o = i.operation := fits.unique other
      rw [show i = ⟨(Row.ofForm o).operation, wordOf opcode⟩ by rw [← word, Row.ofForm, same]]
  | none =>
    simp only [decode, found]
    constructor
    · rintro ⟨⟩
    · rintro ⟨_, fits⟩
      have member : Row.ofForm i.operation ∈ table := by
        rw [table_eq_forms]
        exact List.mem_map_of_mem i.operation.mem_all
      exact absurd (beq_iff_eq.mpr ((matches_ofForm _ _).mpr fits))
        (List.find?_eq_none.mp found _ member)

theorem decode_of_no_match {opcode : Int} (unknown : ∀ row ∈ table, ¬ row.Matches (wordOf opcode)) :
    decode opcode = .error (.unknownOpcode (wordOf opcode)) := by
  have none : table.find? (fun row => wordOf opcode &&& row.mask == row.pattern) = none := by
    apply List.find?_eq_none.mpr
    intro row member matched
    exact unknown row member (beq_iff_eq.mp matched)
  rw [decode, none]

theorem decode_of_match {opcode : Int} {row : Row} (member : row ∈ table)
    (matched : row.Matches (wordOf opcode)) :
    ∃ i, decode opcode = .ok i ∧ i.word = wordOf opcode := by
  rw [table_eq_forms] at member
  obtain ⟨o, _, rfl⟩ := List.mem_map.mp member
  have decoded : decode opcode = .ok ⟨o, wordOf opcode⟩ :=
    decode_eq_ok_iff.mpr ⟨rfl, (matches_ofForm o opcode).mp matched⟩
  exact ⟨_, decoded, rfl⟩

theorem operation_eq_iff {opcode : Int} {i : Instruction} (decoded : decode opcode = .ok i)
    (o : Operation) : i.operation = o ↔ o.Fits opcode := by
  have fits := (decode_eq_ok_iff.mp decoded).2
  constructor
  · rintro rfl
    exact fits
  · exact fits.unique

theorem iff_operation_eq {opcode : Int} {i : Instruction} (decoded : decode opcode = .ok i)
    {o : Operation} {P : Prop} (fits : o.Fits opcode ↔ P) : P ↔ i.operation = o :=
  fits.symm.trans (operation_eq_iff decoded o).symm

theorem decode_of_fits {o : Operation} {word : Nat} (short : word < 0x10000)
    (fits : o.Fits word) : decode word = .ok ⟨o, word⟩ :=
  decode_eq_ok_iff.mpr ⟨(wordOf_natCast short).symm, fits⟩

theorem x_of_word {o : Operation} {word d kk : Nat} {x : Register}
    (made : word = 4096 * d + 256 * x + kk) (small : kk ≤ 255) : Instruction.x ⟨o, word⟩ = x := by
  have high : x.val < 16 := x.isLt
  rw [x_eq]
  apply Fin.ext
  show word / 256 % 16 = x
  omega

end Instruction

/-! ### The words of some operations -/

namespace Operation

variable {word : Nat}

theorem fits_natCast (o : Operation) (small : word < 0x10000) :
    o.Fits word ↔ List.Forall₂ FormDigit.Allows o.form
      [word / 4096, word / 256 % 16, word / 16 % 16, word % 16] := by
  rw [Fits, Instruction.digits_eq, Instruction.wordOf_natCast small]

theorem fits_ret (small : word < 0x10000) : ret.Fits word ↔ word = 0x00EE := by
  simp only [fits_natCast _ small, form, List.forall₂_cons, FormDigit.Allows, List.Forall₂.nil,
    Fin.coe_ofNat_eq_mod, and_true]
  omega

section

variable {o : Operation} {d e b : Fin 16} {f g h : FormDigit}

theorem fits_iff_first (shape : o.form = [.fixed d, f, g, h])
    (free : f.IsFree ∧ g.IsFree ∧ h.IsFree) (small : word < 0x10000) :
    o.Fits word ↔ word / 4096 = d := by
  simp only [fits_natCast _ small, shape, List.forall₂_cons, List.Forall₂.nil,
    FormDigit.allows_fixed, free.1.allows_iff, free.2.1.allows_iff, free.2.2.allows_iff, and_true]

theorem fits_iff_ends (shape : o.form = [.fixed d, f, g, .fixed e]) (free : f.IsFree ∧ g.IsFree)
    (small : word < 0x10000) : o.Fits word ↔ word / 4096 = d ∧ word % 16 = e := by
  simp only [fits_natCast _ small, shape, List.forall₂_cons, List.Forall₂.nil,
    FormDigit.allows_fixed, free.1.allows_iff, free.2.allows_iff, and_true, true_and]

theorem fits_iff_low (shape : o.form = [.fixed d, f, .fixed e, .fixed b]) (free : f.IsFree)
    (small : word < 0x10000) : o.Fits word ↔ word / 4096 = d ∧ word % 256 = 16 * e + b := by
  simp only [fits_natCast _ small, shape, List.forall₂_cons, List.Forall₂.nil,
    FormDigit.allows_fixed, free.allows_iff, and_true, true_and]
  omega

end

theorem fits_jump (small : word < 0x10000) : jump.Fits word ↔ word / 4096 = 1 :=
  fits_iff_first (o := jump) rfl (by trivial) small

theorem fits_call (small : word < 0x10000) : call.Fits word ↔ word / 4096 = 2 :=
  fits_iff_first (o := call) rfl (by trivial) small

theorem fits_skipEqualByte (small : word < 0x10000) : skipEqualByte.Fits word ↔ word / 4096 = 3 :=
  fits_iff_first (o := skipEqualByte) rfl (by trivial) small

theorem fits_skipUnequalByte (small : word < 0x10000) :
    skipUnequalByte.Fits word ↔ word / 4096 = 4 :=
  fits_iff_first (o := skipUnequalByte) rfl (by trivial) small

theorem fits_skipEqual (small : word < 0x10000) :
    skipEqual.Fits word ↔ word / 4096 = 5 ∧ word % 16 = 0 :=
  fits_iff_ends (o := skipEqual) rfl (by trivial) small

theorem fits_skipUnequal (small : word < 0x10000) :
    skipUnequal.Fits word ↔ word / 4096 = 9 ∧ word % 16 = 0 :=
  fits_iff_ends (o := skipUnequal) rfl (by trivial) small

theorem fits_jumpPlus (small : word < 0x10000) : jumpPlus.Fits word ↔ word / 4096 = 0xB :=
  fits_iff_first (o := jumpPlus) rfl (by trivial) small

theorem fits_draw (small : word < 0x10000) : draw.Fits word ↔ word / 4096 = 0xD :=
  fits_iff_first (o := draw) rfl (by trivial) small

theorem fits_skipPressed (small : word < 0x10000) :
    skipPressed.Fits word ↔ word / 4096 = 0xE ∧ word % 256 = 0x9E :=
  fits_iff_low (o := skipPressed) rfl (by trivial) small

theorem fits_skipReleased (small : word < 0x10000) :
    skipReleased.Fits word ↔ word / 4096 = 0xE ∧ word % 256 = 0xA1 :=
  fits_iff_low (o := skipReleased) rfl (by trivial) small

theorem fits_awaitKey (small : word < 0x10000) :
    awaitKey.Fits word ↔ word / 4096 = 0xF ∧ word % 256 = 0x0A :=
  fits_iff_low (o := awaitKey) rfl (by trivial) small

theorem fits_decimal (small : word < 0x10000) :
    decimal.Fits word ↔ word / 4096 = 0xF ∧ word % 256 = 0x33 :=
  fits_iff_low (o := decimal) rfl (by trivial) small

theorem fits_store (small : word < 0x10000) :
    store.Fits word ↔ word / 4096 = 0xF ∧ word % 256 = 0x55 :=
  fits_iff_low (o := store) rfl (by trivial) small

theorem fits_load (small : word < 0x10000) :
    load.Fits word ↔ word / 4096 = 0xF ∧ word % 256 = 0x65 :=
  fits_iff_low (o := load) rfl (by trivial) small

end Operation

end ChipEight
