import ChipEight.Fault
import ChipEight.Proofs.Decoding
import ChipEight.Text.Hex
import Mathlib.Data.List.Find

/-!
A word is decoded if its four hexadecimal digits agree with the form of an operation, character by
character. Form and operands together give the word back.
-/

namespace ChipEight

namespace Hex

def digit (d : Nat) : Char :=
  (Nat.digitChar d).toUpper

theorem toList_padded (width n : Nat) :
    (padded width n).toList =
      List.replicate (width - (Nat.toDigits 16 n).length) '0' ++
        (Nat.toDigits 16 n).map Char.toUpper := by
  simp [padded, zeroFill, upper]

theorem toList_padded_one {n : Nat} (small : n < 16) : (padded 1 n).toList = [digit n] := by
  rw [toList_padded, Nat.toDigits_of_lt_base small]
  rfl

theorem toList_padded_succ {width : Nat} (wide : 0 < width) (n : Nat) :
    (padded (width + 1) n).toList = (padded width (n / 16)).toList ++ [digit (n % 16)] := by
  rw [toList_padded, toList_padded]
  rcases Nat.lt_or_ge n 16 with small | large
  -- the digits of zero are a zero, which takes the place of one that fills up
  · obtain ⟨zeros, rfl⟩ := Nat.exists_eq_add_of_lt wide
    rw [Nat.div_eq_of_lt small, Nat.mod_eq_of_lt small, Nat.toDigits_of_lt_base small,
      Nat.toDigits_zero]
    simp [digit, List.replicate_succ']
  · rw [Nat.toDigits_of_base_le (by decide) large]
    simp [digit]

theorem toList_padded_four {n : Nat} (small : n < 0x10000) :
    (padded 4 n).toList = [n / 4096, n / 256 % 16, n / 16 % 16, n % 16].map digit := by
  rw [toList_padded_succ (by decide), toList_padded_succ (by decide),
    toList_padded_succ (by decide), toList_padded_one (by omega)]
  simp only [Nat.div_div_eq_div_mul, List.map_cons, List.map_nil, List.cons_append,
    List.nil_append]

end Hex

def Instruction.spelling (opcode : Int) : List Char :=
  (Hex.padded 4 (wordOf opcode)).toList

theorem Instruction.spelling_eq (opcode : Int) :
    spelling opcode = (digits opcode).map Hex.digit := by
  rw [digits_eq]
  exact Hex.toList_padded_four (wordOf_lt opcode)

namespace Operation

/-- A character of a form agrees with a digit: the letters of operands agree with every digit, all
others with themselves. -/
def Agrees (form digit : Char) : Prop :=
  form ∈ ['x', 'y', 'n', 'k'] ∨ form = digit

instance (form digit : Char) : Decidable (Agrees form digit) :=
  inferInstanceAs (Decidable (_ ∨ _))

def Spells (o : Operation) (opcode : Int) : Prop :=
  List.Forall₂ Agrees o.formText.toList (Instruction.spelling opcode)

theorem agrees_digit : ∀ e d : Fin 16, Agrees (Hex.digit e) (Hex.digit d) ↔ d = e := by
  decide

theorem agrees_char (f : FormDigit) {d : Nat} (small : d < 16) :
    Agrees f.char (Hex.digit d) ↔ f.Allows d := by
  cases f with
  | fixed e => exact (agrees_digit e ⟨d, small⟩).trans Fin.ext_iff
  | x | y | n | k => exact iff_of_true (.inl (by decide)) trivial

theorem spells_iff_fits (o : Operation) (opcode : Int) : o.Spells opcode ↔ o.Fits opcode := by
  rw [Spells, formText, String.toList_ofList, Instruction.spelling_eq, List.forall₂_map_left_iff,
    List.forall₂_map_right_iff, Fits, List.forall₂_iff_zip, List.forall₂_iff_zip]
  have alike {f : FormDigit} {d : Nat} (paired : (f, d) ∈ o.form.zip (Instruction.digits opcode)) :
      Agrees f.char (Hex.digit d) ↔ f.Allows d :=
    agrees_char f (Instruction.digits_lt opcode d (List.of_mem_zip paired).2)
  exact and_congr_right fun _ => ⟨fun agree _ _ paired => (alike paired).mp (agree paired),
    fun allow _ _ paired => (alike paired).mpr (allow paired)⟩

theorem form_begins (o : Operation) : ∃ d f g h, o.form = [.fixed d, f, g, h] := by
  cases o <;> exact ⟨_, _, _, _, rfl⟩

theorem Fits.first {o : Operation} {opcode : Int} (fits : o.Fits opcode) :
    ∃ (d : Fin 16) (rest : List Char), o.formText.toList = Hex.digit d :: rest ∧
      Instruction.wordOf opcode / 4096 = d := by
  obtain ⟨d, f, g, h, shape⟩ := o.form_begins
  rw [Fits, shape, Instruction.digits_eq, List.forall₂_cons] at fits
  refine ⟨d, [f, g, h].map FormDigit.char, ?_, fits.1⟩
  rw [formText, String.toList_ofList, shape]
  rfl

end Operation

namespace Instruction

variable {opcode : Int} {i : Instruction}

theorem digitValue?_digit : ∀ d : Fin 16, Hex.digitValue? (Hex.digit d) = some d.val := by
  decide

/-- The operands of an instruction are digits of an opcode's low word, which the first character of
the form and they make up. -/
structure Recovers (i : Instruction) (opcode : Int) : Prop where
  word : (i.word : Int) = opcode % 0x10000
  first : ∃ c rest d, i.operation.formText.toList = c :: rest ∧ Hex.digitValue? c = some d ∧
    i.word = 4096 * d + i.nnn
  address : i.nnn = 256 * i.x + i.kk
  byte : i.kk = 16 * i.y + i.n
  digits : i.x.val ≤ 15 ∧ i.y.val ≤ 15 ∧ i.n ≤ 15

theorem recovers_of_decode (decoded : decode opcode = .ok i) : i.Recovers opcode := by
  obtain ⟨same, fits⟩ := decode_eq_ok_iff.mp decoded
  obtain ⟨d, rest, begins, first⟩ := fits.first
  have low : i.x.val = i.word / 256 % 16 := congrArg Fin.val i.x_eq
  have middle : i.y.val = i.word / 16 % 16 := congrArg Fin.val i.y_eq
  refine ⟨?_, ⟨_, rest, d, begins, digitValue?_digit d, ?_⟩, ?_, ?_, ?_⟩
  · rw [same, wordOf]
    omega
  · rw [← first, ← same, nnn_eq]
    omega
  · rw [nnn_eq, kk_eq]
    omega
  · rw [kk_eq, n_eq]
    omega
  · rw [n_eq]
    omega

def decodeBy (rows : List Row) (opcode : Int) : Except Failure Instruction :=
  match rows.find? fun row => row.Matches (wordOf opcode) with
  | some row => .ok ⟨row.operation, wordOf opcode⟩
  | none => .error (.unknownOpcode (wordOf opcode))

theorem decodeBy_table (opcode : Int) : decodeBy table opcode = decode opcode := rfl

theorem matches_unique {row other : Row} (here : row ∈ table) (there : other ∈ table)
    (first : row.Matches (wordOf opcode)) (second : other.Matches (wordOf opcode)) :
    row = other := by
  rw [table_eq_forms] at here there
  obtain ⟨o, _, rfl⟩ := List.mem_map.mp here
  obtain ⟨p, _, rfl⟩ := List.mem_map.mp there
  rw [((matches_ofForm o opcode).mp first).unique ((matches_ofForm p opcode).mp second)]

theorem decodeBy_perm {rows : List Row} (order : rows.Perm table) (opcode : Int) :
    decodeBy rows opcode = decode opcode := by
  have found : rows.find? (fun row => row.Matches (wordOf opcode)) =
      table.find? fun row => row.Matches (wordOf opcode) := by
    refine List.find?_eq_find?_of_perm order ?_
    rintro row ⟨here, first⟩ other ⟨there, second⟩
    exact matches_unique (order.mem_iff.mp here) (order.mem_iff.mp there)
      (of_decide_eq_true first) (of_decide_eq_true second)
  rw [← decodeBy_table, decodeBy, found, decodeBy]

theorem decode_of_unspelled (unspelled : ∀ o : Operation, ¬ o.Spells opcode) :
    decode opcode = .error (.unknownOpcode (wordOf opcode)) := by
  refine decode_of_no_match fun row member matched => ?_
  rw [table_eq_forms] at member
  obtain ⟨o, _, rfl⟩ := List.mem_map.mp member
  exact unspelled o ((o.spells_iff_fits opcode).mpr ((matches_ofForm o opcode).mp matched))

/-- Decoding an opcode is reading its four digits by the forms. -/
structure ReadsForms (opcode : Int) : Prop where
  decoded_iff : (∃ i, decode opcode = .ok i) ↔ ∃ o : Operation, o.Spells opcode
  unique : ∀ o p : Operation, o.Spells opcode → p.Spells opcode → o = p
  recovered : ∀ i, decode opcode = .ok i → i.operation.Spells opcode ∧ i.Recovers opcode
  refused : (∀ o : Operation, ¬ o.Spells opcode) →
    ∃ failure, decode opcode = .error failure ∧
      failure.cause? = some ("UnknownOpcode", .whole (opcode % 0x10000))
  anyOrder : ∀ rows : List Row, rows.Perm table → decodeBy rows opcode = decode opcode

/-- An opcode of any size and sign is decoded exactly if its low word agrees with the form of an
operation, whatever the order of the rows. -/
theorem decode_reads_forms (opcode : Int) : ReadsForms opcode where
  decoded_iff := by
    constructor
    · rintro ⟨i, decoded⟩
      exact ⟨i.operation, (i.operation.spells_iff_fits opcode).mpr (decode_eq_ok_iff.mp decoded).2⟩
    · rintro ⟨o, spelled⟩
      exact ⟨⟨o, wordOf opcode⟩,
        decode_eq_ok_iff.mpr ⟨rfl, (o.spells_iff_fits opcode).mp spelled⟩⟩
  unique o p first second :=
    ((o.spells_iff_fits opcode).mp first).unique ((p.spells_iff_fits opcode).mp second)
  recovered i decoded :=
    ⟨(i.operation.spells_iff_fits opcode).mpr (decode_eq_ok_iff.mp decoded).2,
      recovers_of_decode decoded⟩
  refused unspelled := by
    refine ⟨_, decode_of_unspelled unspelled, ?_⟩
    have word : (wordOf opcode : Int) = opcode % 0x10000 := by
      unfold wordOf
      omega
    rw [Failure.cause?, word]
  anyOrder _ order := decodeBy_perm order opcode

/-- A negative opcode stands for its low word, here 0xF255. -/
example : Operation.store.formText = "Fx55" ∧ spelling (-0xDAB) = ['F', '2', '5', '5'] ∧
    decode (-0xDAB) = .ok ⟨.store, 0xF255⟩ :=
  ⟨rfl, rfl, rfl⟩

end Instruction

end ChipEight
