import ChipEight.Proofs.CallHistory
import ChipEight.Proofs.Pixels

/-!
What is loaded into the first registers is what was stored from there, whatever is done in between,
as long as the index and the bytes stay.
-/

namespace ChipEight

namespace Registers

variable {r : Registers} {x y : Register} {bytes : List UInt8} {b : UInt8} {k j : Nat}

theorem get_loadFrom_of_lt (before : y < k) : (r.loadFrom k bytes).get y = r.get y := by
  induction bytes generalizing k r with
  | nil => rfl
  | cons b bytes ih =>
    rw [loadFrom, ih (Nat.lt_succ_of_lt before)]
    split
    · have other : y ≠ ⟨k, by assumption⟩ := by
        rintro rfl
        exact Nat.lt_irrefl _ before
      exact get_set_of_ne other _
    · rfl

theorem get_loadFrom_of_held (held : bytes[j]? = some b) (place : y = k + j) :
    (r.loadFrom k bytes).get y = b.toNat := by
  induction bytes generalizing k r j with
  | nil => cases held
  | cons first bytes ih =>
    rw [loadFrom]
    cases j with
    | zero =>
      cases held
      have fits : k < registerCount := by
        have bound := y.isLt
        omega
      have here : y = ⟨k, fits⟩ := Fin.ext place
      -- the bytes that are loaded later go into registers behind this one
      rw [get_loadFrom_of_lt (by omega), dif_pos fits, get_set, if_pos here]
      exact wrapByte_natCast (Nat.le_of_lt_succ b.toNat_lt)
    | succ j => exact ih held (by omega)

theorem getElem?_upTo (within : y ≤ x) : (r.upTo x)[y.val]? = some (r.get y) := by
  have reach : y.val < x + 1 := Nat.lt_succ_of_le within
  rw [upTo, List.getElem?_take_of_lt reach]
  simp [get]

end Registers

namespace Machine

variable {m saved left : Machine} {x : Register} {o : Operation}

def singleWord (x : Register) (kk : Nat) : Nat :=
  0xF000 + 256 * x + kk

/-- A word can be carried out and comes to something, be it handed to the machine or found at the
program counter. -/
structure CarriesOut (m : Machine) (word : Nat) (result : Machine → Prop) : Prop where
  executed : ∃ i after, Instruction.decode word = .ok i ∧ execute i m = .ok ⟨⟩ after ∧ result after
  stepped : m.fault = none → m.registers.pc ≠ 0xFFF → m.upcoming = word →
    ∃ next, m.step = .ok none next ∧ result next

theorem CarriesOut.mono {word : Nat} {result other : Machine → Prop}
    (carries : m.CarriesOut word result) (implies : ∀ after, result after → other after) :
    m.CarriesOut word other where
  executed := by
    obtain ⟨i, after, decoded, executed, came⟩ := carries.executed
    exact ⟨i, after, decoded, executed, implies after came⟩
  stepped running before stands := by
    obtain ⟨next, stepped, came⟩ := carries.stepped running before stands
    exact ⟨next, stepped, implies next came⟩

theorem CarriesOut.of_execute {word : Nat} {i : Instruction} {result : Machine → Prop}
    (range : m.InRange) (decoded : Instruction.decode word = .ok i)
    (executes : ∀ k : Machine, k.InRange → k.registers.v = m.registers.v →
      k.registers.index = m.registers.index → k.memory = m.memory →
      ∃ after, execute i k = .ok ⟨⟩ after ∧ ∀ cycles, result { after with cycles }) :
    m.CarriesOut word result where
  executed := by
    obtain ⟨after, executed, came⟩ := executes m range rfl rfl rfl
    exact ⟨i, after, decoded, executed, came after.cycles⟩
  stepped running before stands := by
    obtain ⟨after, executed, came⟩ := executes m.fetched range.fetched rfl rfl rfl
    have ready : m.Ready := ⟨range, running, before⟩
    rw [← stands] at decoded
    exact ⟨_, ready.step_done decoded executed, came _⟩

theorem x_singleWord {kk : Nat} (small : kk ≤ 255) : Instruction.x ⟨o, singleWord x kk⟩ = x :=
  Instruction.x_of_word (d := 0xF) rfl small

theorem decode_singleWord {e b : Fin 16} (shape : o.form = [.fixed 0xF, .x, .fixed e, .fixed b])
    (x : Register) :
    Instruction.decode (singleWord x (16 * e + b)) = .ok ⟨o, singleWord x (16 * e + b)⟩ := by
  have high : x.val < 16 := x.isLt
  have short : singleWord x (16 * e + b) < 0x10000 := by
    unfold singleWord
    omega
  refine Instruction.decode_of_fits short
    ((Operation.fits_iff_low shape (by trivial) short).mpr ?_)
  unfold singleWord
  omega

theorem bytesAtIndex_splice {bytes : List UInt8}
    (room : m.registers.index + bytes.length ≤ m.memory.size) :
    { m with memory := m.memory.splice m.registers.index bytes }.bytesAtIndex bytes.length =
      bytes := by
  apply List.ext_getElem
  · simp [bytesAtIndex]
  · intro k here there
    have covered : m.registers.index ≤ m.registers.index + k ∧
        m.registers.index + k < m.registers.index + bytes.length := by omega
    simp only [bytesAtIndex, List.getElem_map, List.getElem_range]
    rw [Memory.getD_splice _ _ _ _ room, if_pos covered, Nat.add_sub_cancel_left]
    simp [there]

theorem bytesAtIndex_congr {k : Machine} (index : k.registers.index = m.registers.index)
    (memory : k.memory = m.memory) (n : Nat) : k.bytesAtIndex n = m.bytesAtIndex n := by
  rw [bytesAtIndex, index, memory, bytesAtIndex]

theorem executeLoad_bytesAtIndex (inside : m.registers.index + (x + 1) ≤ m.memory.size) :
    executeLoad x m =
      .ok ⟨⟩ { m with registers := m.registers.load (m.bytesAtIndex (x + 1)) } := by
  rw [executeLoad, Attempt.get_bind, Memory.block_of_inBounds inside,
    extract_eq_bytesAtIndex inside]
  rfl

/-- Some values were stored at the index, as bytes, and the machine is still in range. -/
structure Keeping (m : Machine) (values : List Nat) (saved : Machine) : Prop where
  range : saved.InRange
  index : saved.registers.index = m.registers.index
  bytes : saved.bytesAtIndex values.length = values.map fun n : Nat => lowByte n

theorem carriesOut_of_storeAtIndex {word : Nat} {i : Instruction} {values : List Nat}
    (range : m.InRange) (decoded : Instruction.decode word = .ok i)
    (stores : ∀ k : Machine, k.registers.v = m.registers.v → execute i k = storeAtIndex values k)
    (room : m.registers.index + values.length ≤ memorySize) :
    m.CarriesOut word (m.Keeping values) := by
  refine .of_execute range decoded fun k kRange registers index _ => ?_
  rw [← index, ← kRange.memory] at room
  have fits : k.registers.index + (values.map fun n : Nat => lowByte n).length ≤ k.memory.size := by
    rwa [List.length_map]
  refine ⟨_, (stores k registers).trans (storeAtIndex_of_inside room), fun cycles => ?_⟩
  refine ⟨{ kRange.splice fits with }, index, ?_⟩
  have stored := bytesAtIndex_splice fits
  rw [List.length_map] at stored
  exact stored

theorem carriesOut_store (range : m.InRange) (room : m.registers.index + x + 1 ≤ memorySize) :
    m.CarriesOut (singleWord x 0x55) (m.Keeping (m.registers.upTo x)) := by
  refine carriesOut_of_storeAtIndex range
    (decode_singleWord (o := .store) (e := 5) (b := 5) rfl x) (fun k same => ?_) ?_
  · have stores : execute ⟨.store, singleWord x 0x55⟩ k =
        storeAtIndex (k.registers.upTo (Instruction.x ⟨.store, singleWord x 0x55⟩)) k := rfl
    rw [x_singleWord (by decide), Registers.upTo, same] at stores
    exact stores
  · rw [upTo_length]
    exact room

theorem carriesOut_decimal (range : m.InRange) (x : Register)
    (room : m.registers.index + 3 ≤ memorySize) :
    m.CarriesOut (singleWord x 0x33) (m.Keeping (decimalDigits (m.registers.get x))) := by
  refine carriesOut_of_storeAtIndex range
    (decode_singleWord (o := .decimal) (e := 3) (b := 3) rfl x) (fun k same => ?_) room
  have stores : execute ⟨.decimal, singleWord x 0x33⟩ k = storeAtIndex
      (decimalDigits (k.registers.get (Instruction.x ⟨.decimal, singleWord x 0x33⟩))) k := rfl
  rw [x_singleWord (by decide), Registers.get, same] at stores
  exact stores

structure Loaded (m : Machine) (x : Register) (after : Machine) : Prop where
  bytes : ∀ y ≤ x, ∀ b, (m.bytesAtIndex (x + 1))[y.val]? = some b → after.registers.get y = b.toNat
  others : ∀ y > x, after.registers.get y = m.registers.get y
  index : after.registers.index = m.registers.index

theorem carriesOut_load (range : m.InRange) (room : m.registers.index + x + 1 ≤ memorySize) :
    m.CarriesOut (singleWord x 0x65) (m.Loaded x) := by
  refine .of_execute range (decode_singleWord (o := .load) (e := 6) (b := 5) rfl x)
    fun k kRange registers index memory => ?_
  have bytes := bytesAtIndex_congr index memory (x + 1)
  rw [← index, Nat.add_assoc, ← kRange.memory] at room
  have loads : execute ⟨.load, singleWord x 0x65⟩ k =
      executeLoad (Instruction.x ⟨.load, singleWord x 0x65⟩) k := rfl
  rw [x_singleWord (by decide), executeLoad_bytesAtIndex room, bytes] at loads
  refine ⟨_, loads, fun cycles => ⟨fun y _ b held => ?_, fun y behind => ?_, ?_⟩⟩
  · exact Registers.get_loadFrom_of_held held (Nat.zero_add _).symm
  · have length : (m.bytesAtIndex (x + 1)).length = x + 1 := by simp [bytesAtIndex]
    have kept : (k.registers.load (m.bytesAtIndex (x + 1))).get y = k.registers.get y :=
      Registers.get_loadFrom (by rw [length]; exact (Nat.zero_add _).trans_le behind)
    rw [kept, Registers.get, registers, Registers.get]
  · exact (Registers.index_loadFrom _ _).trans index

theorem Keeping.get_of_loaded {values : List Nat} {after : Machine} {y : Register} {n : Nat}
    (keeping : m.Keeping values saved) (loaded : left.Loaded x after)
    (length : values.length = x + 1)
    (kept : left.bytesAtIndex (x + 1) = saved.bytesAtIndex (x + 1)) (within : y ≤ x)
    (held : values[y.val]? = some n) (byte : n ≤ 255) : after.registers.get y = n := by
  have stored : (left.bytesAtIndex (x + 1))[y.val]? = some (lowByte n) := by
    rw [kept, ← length, keeping.bytes, List.getElem?_map, held]
    rfl
  rw [loaded.bytes y within _ stored, toNat_lowByte]
  omega

structure Restored (m left : Machine) (x : Register) (after : Machine) : Prop where
  values : ∀ y ≤ x, after.registers.get y = m.registers.get y
  others : ∀ y > x, after.registers.get y = left.registers.get y
  index : after.registers.index = m.registers.index

theorem Keeping.restored {after : Machine} (range : m.InRange)
    (keeping : m.Keeping (m.registers.upTo x) saved)
    (index : left.registers.index = saved.registers.index)
    (kept : left.bytesAtIndex (x + 1) = saved.bytesAtIndex (x + 1))
    (loaded : left.Loaded x after) : m.Restored left x after where
  values y within := keeping.get_of_loaded loaded (upTo_length _ x) kept within
    (Registers.getElem?_upTo within) (range.registers.bytes y)
  others := loaded.others
  index := loaded.index.trans (index.trans keeping.index)

structure HoldsDigits (n : Nat) (m : Machine) : Prop where
  digits : m.registers.get 0 ≤ 9 ∧ m.registers.get 1 ≤ 9 ∧ m.registers.get 2 ≤ 9
  sum : 100 * m.registers.get 0 + 10 * m.registers.get 1 + m.registers.get 2 = n

theorem Keeping.holdsDigits {n : Nat} {after : Machine} (byte : n ≤ 255)
    (keeping : m.Keeping (decimalDigits n) saved) (loaded : saved.Loaded 2 after) :
    HoldsDigits n after := by
  have hundreds : after.registers.get 0 = n / 100 :=
    keeping.get_of_loaded loaded rfl rfl (by decide) rfl (by omega)
  have tens : after.registers.get 1 = n / 10 % 10 :=
    keeping.get_of_loaded loaded rfl rfl (by decide) rfl (by omega)
  have ones : after.registers.get 2 = n % 10 :=
    keeping.get_of_loaded loaded rfl rfl (by decide) rfl (by omega)
  constructor
  · omega
  · omega

theorem InRange.performAll (range : m.InRange) (actions : List Action) :
    (m.performAll actions).InRange :=
  List.foldlRecOn (motive := InRange) actions Machine.perform range fun _ kept action _ =>
    kept.perform action

/-- Registers that are stored come back, whatever is done before they are loaded that leaves the
index and the stored bytes alone, and the digits of a register that are stored are loaded as three
registers. -/
theorem load_restores_stored (range : m.InRange) (x : Register) :
    (m.registers.index + x + 1 ≤ 4096 →
      m.CarriesOut (singleWord x 0x55) fun saved => ∀ actions,
        let left := saved.performAll actions
        left.registers.index = saved.registers.index →
        left.bytesAtIndex (x + 1) = saved.bytesAtIndex (x + 1) →
        left.CarriesOut (singleWord x 0x65) (m.Restored left x)) ∧
    (m.registers.index + 3 ≤ 4096 →
      m.CarriesOut (singleWord x 0x33) fun saved =>
        saved.CarriesOut 0xF265 (HoldsDigits (m.registers.get x))) := by
  constructor
  · intro room
    refine (carriesOut_store range room).mono fun saved keeping actions index kept => ?_
    have there : (saved.performAll actions).registers.index + x + 1 ≤ memorySize := by
      rw [index, keeping.index]
      exact room
    exact (carriesOut_load (keeping.range.performAll actions) there).mono fun after loaded =>
      keeping.restored range index kept loaded
  · intro room
    refine (carriesOut_decimal range x room).mono fun saved keeping => ?_
    have there : saved.registers.index + (2 : Register) + 1 ≤ memorySize := by
      rw [keeping.index]
      exact room
    exact (carriesOut_load keeping.range there).mono fun after loaded =>
      keeping.holdsDigits (range.registers.bytes x) loaded

/-- A register that is stored, overwritten and loaded, and its digits. -/
theorem load_restores_stored_of_setByte :
    let m := new.perform (.execute ⟨.setByte, 0x63EA⟩)
    Reachable m ∧
      (m.CarriesOut 0xF355 fun saved =>
        (saved.perform (.execute ⟨.setByte, 0x6300⟩)).CarriesOut 0xF365 fun after =>
          after.registers.get 3 = 234) ∧
      m.CarriesOut 0xF333 fun saved => saved.CarriesOut 0xF265 (HoldsDigits 234) := by
  intro m
  have reachable : Reachable m := .perform _ (.new {} _)
  have value : m.registers.get 3 = 234 := rfl
  have room : m.registers.index + (3 : Register) + 1 ≤ 4096 := by decide
  obtain ⟨stored, digits⟩ := load_restores_stored reachable.inRange 3
  refine ⟨reachable, (stored room).mono fun saved restores => ?_, ?_⟩
  · exact (restores [.execute ⟨.setByte, 0x6300⟩] rfl rfl).mono fun after restored =>
      (restored.values 3 (by decide)).trans value
  · rw [value] at digits
    exact digits (by decide)

end Machine

end ChipEight
