import ChipEight.Proofs.Execution
import ChipEight.Proofs.History

/-!
Each change of a memory is refused or carried out as a whole. So an address holds what the last
change that was carried out and covered it gave for it since the last reset.
-/

namespace ChipEight

open EStateM (Result)

namespace Memory

inductive Change where
  | write (address : Int) (values : List Int)
  | storeFont (values : List Int)
  | storeRom (values : List Int)
  | reset

def IsByte (value : Int) : Prop :=
  0 ≤ value ∧ value ≤ 255

instance (value : Int) : Decidable (IsByte value) :=
  inferInstanceAs (Decidable (_ ∧ _))

namespace Change

/-- Glyphs have to be given as bytes; all other values count modulo a byte. -/
def attempt : Change → Attempt Memory Unit
  | write address values => writeValues address values
  | storeFont values => Memory.storeFont (values.map Value.whole)
  | storeRom values => Memory.storeRom (values.map lowByte)
  | reset => modify Memory.reset

def block? : Change → Option (Int × List Int)
  | write address values => some (address, values)
  | storeFont values => some (fontStart, values)
  | storeRom values => some (romStart, values)
  | reset => none

def Fits (size : Nat) (c : Change) : Prop :=
  ∀ start values, c.block? = some (start, values) → 0 ≤ start ∧ start + values.length ≤ size

def Proper : Change → Prop
  | storeFont values => ∀ value ∈ values, IsByte value
  | _ => True

def Gives (c : Change) (address value : Int) : Prop :=
  ∃ start values, c.block? = some (start, values) ∧
    ∃ k : Nat, address = start + k ∧ values[k]? = some value

end Change

variable {m : Memory} {size : Nat} {c : Change} {history : List Change} {address value : Int}
  {start : Int} {values : List Int}

def comply (m : Memory) (c : Change) : Memory :=
  Attempt.left (c.attempt m)

def complyAll (m : Memory) (history : List Change) : Memory :=
  history.foldl comply m

def Accepts (m : Memory) (history : List Change) (c : Change) : Prop :=
  ∃ after, c.attempt (m.complyAll history) = .ok ⟨⟩ after

/-- The value is what the last change that was carried out and covered the address gave for it, and
no reset came later. -/
def LastGiven (m : Memory) (history : List Change) (address value : Int) : Prop :=
  Since (fun before c => m.Accepts before c ∧ c.Gives address value)
    (fun before c => c ≠ .reset ∧ ¬ (m.Accepts before c ∧ ∃ other, c.Gives address other)) history

/-! ### Single changes -/

theorem fontBytes_of_bytes {position : Nat} (bytes : ∀ value ∈ values, IsByte value) :
    fontBytes position (values.map Value.whole) = .ok (values.map lowByte) := by
  induction values generalizing position with
  | nil => rfl
  | cons value values ih =>
    rw [List.forall_mem_cons] at bytes
    have first : byte? (.whole value) = some (lowByte value) := if_pos bytes.1
    simp only [List.map_cons, fontBytes, first, ih bytes.2, Except.map]

theorem fontBytes_of_first {good rest : List Int} {position : Nat}
    (bytes : ∀ value ∈ good, IsByte value) (bad : ¬ IsByte value) :
    fontBytes position ((good ++ value :: rest).map Value.whole) =
      .error (.invalidFontByte (.whole value) (position + good.length)) := by
  induction good generalizing position with
  | nil =>
    have refused : byte? (.whole value) = none := if_neg bad
    simp only [List.nil_append, List.map_cons, fontBytes, refused, List.length_nil, Nat.add_zero]
  | cons byte good ih =>
    rw [List.forall_mem_cons] at bytes
    have first : byte? (.whole byte) = some (lowByte byte) := if_pos bytes.1
    simp only [List.cons_append, List.map_cons, fontBytes, first, ih bytes.2, Except.map,
      List.length_cons, Nat.add_assoc, Nat.add_comm 1]

theorem exists_first_bad (bad : ¬ ∀ value ∈ values, IsByte value) :
    ∃ good value rest, values = good ++ value :: rest ∧ (∀ byte ∈ good, IsByte byte) ∧
      ¬ IsByte value := by
  cases found : values.find? (fun value => ¬ IsByte value) with
  | none =>
    rw [List.find?_eq_none] at found
    exact absurd (fun value member => by simpa using found value member) bad
  | some value =>
    obtain ⟨bad, good, rest, order, bytes⟩ := List.find?_eq_some_iff_append.mp found
    exact ⟨good, value, rest, order, by simpa using bytes, by simpa using bad⟩

theorem attempt_of_proper (block : c.block? = some (start, values)) (proper : c.Proper) :
    c.attempt m = writeValues start values m := by
  cases c with
  | write | storeRom =>
    cases block
    rfl
  | storeFont =>
    cases block
    rw [Change.attempt, storeFont, fontBytes_of_bytes proper]
    rfl
  | reset => cases block

theorem attempt_of_fits (block : c.block? = some (start, values)) (proper : c.Proper)
    (fits : c.Fits m.size) :
    c.attempt m = .ok ⟨⟩ (m.splice start.toNat (values.map lowByte)) := by
  rw [attempt_of_proper block proper]
  exact writeValues_of_inBounds (fits start values block)

theorem attempt_of_outside (block : c.block? = some (start, values)) (proper : c.Proper)
    (sticksOut : ¬ c.Fits m.size) :
    c.attempt m = .error (outside start values.length) m := by
  rw [attempt_of_proper block proper]
  refine writeValues_of_not_inBounds fun inside => sticksOut fun other others same => ?_
  rw [block] at same
  cases same
  exact inside

theorem attempt_of_bad {good rest : List Int} (bytes : ∀ value ∈ good, IsByte value)
    (bad : ¬ IsByte value) :
    (Change.storeFont (good ++ value :: rest)).attempt m =
      .error (.invalidFontByte (.whole value) good.length) m := by
  rw [Change.attempt, storeFont, fontBytes_of_first bytes bad, Nat.zero_add]
  rfl

inductive Outcome (m : Memory) : Change → Result Failure Memory Unit → Prop
  | reset : Outcome m .reset (.ok ⟨⟩ m.reset)
  | done {c : Change} {start : Int} {values : List Int} (block : c.block? = some (start, values))
    (proper : c.Proper) (fits : c.Fits m.size) :
    Outcome m c (.ok ⟨⟩ (m.splice start.toNat (values.map lowByte)))
  | outside {c : Change} {start : Int} {values : List Int} (block : c.block? = some (start, values))
    (proper : c.Proper) (sticksOut : ¬ c.Fits m.size) :
    Outcome m c (.error (outside start values.length) m)
  | notByte {good rest : List Int} {value : Int} (bytes : ∀ byte ∈ good, IsByte byte)
    (bad : ¬ IsByte value) :
    Outcome m (.storeFont (good ++ value :: rest))
      (.error (.invalidFontByte (.whole value) good.length) m)

theorem outcome_of_proper (block : c.block? = some (start, values)) (proper : c.Proper) :
    Outcome m c (c.attempt m) := by
  by_cases fits : c.Fits m.size
  · rw [attempt_of_fits block proper fits]
    exact .done block proper fits
  · rw [attempt_of_outside block proper fits]
    exact .outside block proper fits

theorem outcome (m : Memory) (c : Change) : Outcome m c (c.attempt m) := by
  cases c with
  | reset => exact .reset
  | write address values => exact outcome_of_proper rfl trivial
  | storeRom values => exact outcome_of_proper rfl trivial
  | storeFont values =>
    by_cases proper : ∀ value ∈ values, IsByte value
    · exact outcome_of_proper rfl proper
    · obtain ⟨good, value, rest, rfl, bytes, bad⟩ := exists_first_bad proper
      rw [attempt_of_bad bytes bad]
      exact .notByte bytes bad

/-! ### Histories -/

theorem Change.gives_iff (block : c.block? = some (start, values)) :
    c.Gives address value ↔
      start ≤ address ∧ values[(address - start).toNat]? = some value := by
  constructor
  · rintro ⟨_, _, same, k, rfl, held⟩
    rw [block] at same
    cases same
    refine ⟨by omega, ?_⟩
    rwa [show (start + k - start).toNat = k by omega]
  · rintro ⟨behind, held⟩
    exact ⟨start, values, block, (address - start).toNat, by omega, held⟩

theorem Change.not_gives_reset : ¬ Change.reset.Gives address value := by
  rintro ⟨_, _, block, _⟩
  cases block

theorem Change.exists_gives_iff (block : c.block? = some (start, values)) (inside : 0 ≤ start)
    {k : Nat} :
    (∃ value, c.Gives k value) ↔ start.toNat ≤ k ∧ k < start.toNat + values.length := by
  simp only [gives_iff block, exists_and_left]
  constructor
  · rintro ⟨behind, value, held⟩
    obtain ⟨within, _⟩ := List.getElem?_eq_some_iff.mp held
    omega
  · intro covered
    exact ⟨by omega, _, List.getElem?_eq_getElem (by omega)⟩

section

variable (block : c.block? = some (start, values)) (fits : c.Fits m.size)

include block fits

theorem room_of_fits : start.toNat + (values.map lowByte).length ≤ m.size := by
  obtain ⟨first, last⟩ := fits start values block
  rw [List.length_map]
  omega

theorem size_splice_of_fits : (m.splice start.toNat (values.map lowByte)).size = m.size :=
  size_splice _ _ _ (room_of_fits block fits)

theorem getD_splice_of_gives {k : Nat} (gives : c.Gives k value) :
    (m.splice start.toNat (values.map lowByte)).cells.getD k 0 = lowByte value := by
  have inside := (fits start values block).1
  have covered := (Change.exists_gives_iff block inside).mp ⟨value, gives⟩
  obtain ⟨_, held⟩ := (Change.gives_iff block).mp gives
  rw [getD_splice _ _ _ _ (room_of_fits block fits), List.length_map, if_pos covered,
    List.getD_eq_getElem?_getD, List.getElem?_map,
    show k - start.toNat = ((k : Int) - start).toNat by omega, held]
  rfl

theorem getD_splice_of_spared {k : Nat} (spared : ¬ ∃ other, c.Gives k other) :
    (m.splice start.toNat (values.map lowByte)).cells.getD k 0 = m.cells.getD k 0 := by
  have inside := (fits start values block).1
  rw [Change.exists_gives_iff block inside] at spared
  rw [getD_splice _ _ _ _ (room_of_fits block fits), List.length_map, if_neg spared]

end

theorem lastGiven_concat :
    m.LastGiven (history ++ [c]) address value ↔
      (m.Accepts history c ∧ c.Gives address value) ∨
        m.LastGiven history address value ∧ c ≠ .reset ∧
          ¬ (m.Accepts history c ∧ ∃ other, c.Gives address other) :=
  since_concat

theorem lastGiven_of_refused (change : c ≠ .reset) (refused : ¬ m.Accepts history c) :
    m.LastGiven (history ++ [c]) address value ↔ m.LastGiven history address value := by
  rw [lastGiven_concat]
  simp [refused, change]

theorem not_lastGiven_of_reset : ¬ m.LastGiven (history ++ [.reset]) address value := by
  rw [lastGiven_concat]
  simp [Change.not_gives_reset]

theorem lastGiven_of_gives (accepted : m.Accepts history c)
    (gives : ∃ other, c.Gives address other) :
    m.LastGiven (history ++ [c]) address value ↔ c.Gives address value := by
  rw [lastGiven_concat]
  simp [accepted, gives]

theorem lastGiven_of_spared (change : c ≠ .reset) (spared : ¬ ∃ other, c.Gives address other) :
    m.LastGiven (history ++ [c]) address value ↔ m.LastGiven history address value := by
  have none : ¬ c.Gives address value := fun gives => spared ⟨value, gives⟩
  rw [lastGiven_concat]
  simp [none, spared, change]

/-- Every cell of a memory holds what was given for it last since `initial`, and zero if nothing
was. -/
structure Current (initial : Memory) (history : List Change) (m : Memory) : Prop where
  size : m.size = initial.size
  given : ∀ (k : Nat) value, initial.LastGiven history k value →
    m.cells.getD k 0 = lowByte value
  blank : ∀ k : Nat, (∀ value, ¬ initial.LastGiven history k value) → m.cells.getD k 0 = 0

theorem getD_zeroed (size k : Nat) : (zeroed size).cells.getD k 0 = 0 := by
  simp [zeroed, Array.getD]

namespace Current

variable {initial : Memory}

theorem zeroed (size : Nat) : (zeroed size).Current [] (zeroed size) where
  size := rfl
  given _ _ last := absurd last not_since_nil
  blank k _ := getD_zeroed size k

theorem refused (current : initial.Current history m) (change : c ≠ .reset)
    (refused : ¬ initial.Accepts history c) : initial.Current (history ++ [c]) m where
  size := current.size
  given k value last := current.given k value ((lastGiven_of_refused change refused).mp last)
  blank k none := current.blank k fun value last =>
    none value ((lastGiven_of_refused change refused).mpr last)

theorem reset (current : initial.Current history m) :
    initial.Current (history ++ [.reset]) m.reset where
  size := (Array.size_replicate).trans current.size
  given _ _ last := absurd last not_lastGiven_of_reset
  blank k _ := getD_zeroed m.size k

theorem splice (current : initial.Current history m) (accepted : initial.Accepts history c)
    (block : c.block? = some (start, values)) (fits : c.Fits m.size) :
    initial.Current (history ++ [c]) (m.splice start.toNat (values.map lowByte)) := by
  have change : c ≠ .reset := by
    rintro rfl
    cases block
  -- a cell in the block holds what the change gives for it, all others what they held before
  refine ⟨(size_splice_of_fits block fits).trans current.size, fun k value last => ?_,
    fun k none => ?_⟩
  · by_cases covered : ∃ other, c.Gives k other
    · exact getD_splice_of_gives block fits ((lastGiven_of_gives accepted covered).mp last)
    · rw [getD_splice_of_spared block fits covered]
      exact current.given k value ((lastGiven_of_spared change covered).mp last)
  · by_cases covered : ∃ other, c.Gives k other
    · obtain ⟨other, gives⟩ := covered
      exact absurd ((lastGiven_of_gives accepted ⟨other, gives⟩).mpr gives) (none other)
    · rw [getD_splice_of_spared block fits covered]
      exact current.blank k fun value last =>
        none value ((lastGiven_of_spared change covered).mpr last)

theorem comply (current : initial.Current history (initial.complyAll history)) (c : Change) :
    initial.Current (history ++ [c]) (initial.complyAll (history ++ [c])) := by
  have next : initial.complyAll (history ++ [c]) = (initial.complyAll history).comply c := by
    rw [Memory.complyAll, List.foldl_append]
    rfl
  have accepted : initial.Accepts history c ↔
      ∃ after, c.attempt (initial.complyAll history) = .ok ⟨⟩ after := Iff.rfl
  have outcome := (initial.complyAll history).outcome c
  rw [next, Memory.comply]
  generalize c.attempt (initial.complyAll history) = result at accepted outcome ⊢
  cases outcome with
  | reset => exact current.reset
  | done block proper fits => exact current.splice (accepted.mpr ⟨_, rfl⟩) block fits
  | outside block proper sticksOut =>
    refine current.refused ?_ fun taken => ?_
    · rintro rfl
      cases block
    · obtain ⟨_, same⟩ := accepted.mp taken
      cases same
  | notByte bytes bad =>
    refine current.refused (by rintro ⟨⟩) fun taken => ?_
    obtain ⟨_, same⟩ := accepted.mp taken
    cases same

theorem complyAll (size : Nat) (history : List Change) :
    (Memory.zeroed size).Current history ((Memory.zeroed size).complyAll history) := by
  -- from the end, since it is the last change that decides
  induction history using List.reverseRecOn with
  | nil => exact .zeroed size
  | append_singleton history c ih => exact ih.comply c

end Current

/-! ### What a memory answers -/

structure ReadsLast (initial : Memory) (history : List Change) (m : Memory) (address : Int) :
    Prop where
  refused : m.read address = .error (.outOfBounds (.whole address) (.whole 1)) ↔
    address < 0 ∨ m.size ≤ address
  given : 0 ≤ address → address < m.size → ∀ value, initial.LastGiven history address value →
    ∃ byte, m.read address = .ok byte ∧ (byte.toNat : Int) = value % 256
  blank : 0 ≤ address → address < m.size → (∀ value, ¬ initial.LastGiven history address value) →
    m.read address = .ok 0

structure ReadsBlock (m : Memory) (address : Int) (length : Nat) : Prop where
  refused : m.block address length = .error (.outOfBounds (.whole address) (.whole length)) ↔
    address < 0 ∨ m.size < address + length
  bytes : 0 ≤ address → address + length ≤ m.size →
    ∃ bytes, m.block address length = .ok bytes ∧ bytes.length = length ∧
      ∀ (k : Nat) (within : k < bytes.length), m.read (address + k) = .ok bytes[k]

/-- A change is refused if its block does not lie inside or it has a glyph value that is no byte, of
which the first is reported before all else. A refused change changes nothing. -/
structure AllOrNothing (m : Memory) (c : Change) : Prop where
  refused : (∃ failure after, c.attempt m = .error failure after) ↔
    ¬ c.Fits m.size ∨ ¬ c.Proper
  unchanged : ∀ failure after, c.attempt m = .error failure after → after = m
  notByte : ∀ good value rest, c = .storeFont (good ++ value :: rest) →
    (∀ byte ∈ good, IsByte byte) → ¬ IsByte value →
    c.attempt m = .error (.invalidFontByte (.whole value) good.length) m
  outside : ∀ start values, c.block? = some (start, values) → c.Proper → ¬ c.Fits m.size →
    c.attempt m = .error (.outOfBounds (.whole start) (.whole values.length)) m

theorem read_refused_iff :
    m.read address = .error (outside address 1) ↔ address < 0 ∨ m.size ≤ address := by
  unfold read
  split
  next inside =>
    unfold InBounds at inside
    simp only [reduceCtorEq, false_iff]
    omega
  next outside =>
    unfold InBounds at outside
    simp only [true_iff]
    omega

theorem Current.readsLast {initial : Memory} (current : initial.Current history m)
    (address : Int) : ReadsLast initial history m address := by
  refine ⟨read_refused_iff, fun low high value last => ?_, fun low high none => ?_⟩
  · obtain ⟨k, rfl⟩ := Int.eq_ofNat_of_zero_le low
    refine ⟨_, read_of_lt (Int.ofNat_lt.mp high), ?_⟩
    rw [current.given k value last, toNat_lowByte]
    omega
  · obtain ⟨k, rfl⟩ := Int.eq_ofNat_of_zero_le low
    rw [read_of_lt (Int.ofNat_lt.mp high), current.blank k none]

theorem readsBlock (m : Memory) (address : Int) (length : Nat) : m.ReadsBlock address length := by
  constructor
  case refused =>
    unfold block
    split
    next inside =>
      unfold InBounds at inside
      simp only [reduceCtorEq, false_iff]
      omega
    next outside =>
      unfold InBounds at outside
      refine iff_of_true rfl (by omega)
  case bytes =>
    intro low high
    obtain ⟨start, rfl⟩ := Int.eq_ofNat_of_zero_le low
    have inside : start + length ≤ m.cells.size := by
      unfold size at high
      omega
    have reach : (m.cells.extract start (start + length)).toList.length = length := by
      rw [Array.length_toList, Array.size_extract]
      omega
    refine ⟨_, block_of_inBounds inside, reach, fun k within => ?_⟩
    rw [reach] at within
    have place : start + k < m.cells.size := by omega
    rw [← Int.natCast_add, read_of_lt place]
    simp [Array.getD, place]

theorem allOrNothing (m : Memory) (c : Change) : m.AllOrNothing c where
  refused := by
    have outcome := m.outcome c
    generalize c.attempt m = result at outcome ⊢
    cases outcome with
    | reset =>
      have fits : Change.Fits m.size .reset := by rintro _ _ ⟨⟩
      simp [fits, Change.Proper]
    | done block proper fits => simp [proper, fits]
    | outside block proper sticksOut => simp [sticksOut]
    | @notByte good rest value bytes bad =>
      have improper : ¬ (Change.storeFont (good ++ value :: rest)).Proper := fun proper =>
        bad (proper value (List.mem_append_right _ List.mem_cons_self))
      simp [improper]
  unchanged failure after failed := by
    have outcome := m.outcome c
    rw [failed] at outcome
    cases outcome <;> rfl
  notByte := by
    rintro good value rest rfl bytes bad
    exact attempt_of_bad bytes bad
  outside _ _ block proper sticksOut := attempt_of_outside block proper sticksOut

/-- Whatever was done to a memory, every address inside answers what was given for it last, and what
is done next is done as a whole or refused as a whole. -/
theorem answers_last_writes (size : Nat) (history : List Change) :
    let m := (zeroed size).complyAll history
    m.size = size ∧ (∀ address, ReadsLast (zeroed size) history m address) ∧
      (∀ address length, m.ReadsBlock address length) ∧ ∀ c, m.AllOrNothing c := by
  have current := Current.complyAll size history
  exact ⟨current.size.trans Array.size_replicate, current.readsLast, readsBlock _, allOrNothing _⟩

/-- A write that sticks out leaves no byte behind, and values count modulo a byte. -/
example : ((zeroed 4).complyAll [.write 1 [7, -1], .write 2 [5, 6, 7], .write 2 [0x105]]).cells =
    #[0, 7, 5, 0] := by
  decide

end Memory

end ChipEight
