import ChipEight.Proofs.CallHistory

/-!
Where the word at the program counter leads. `successor` says it word by word, without the decoder,
from the registers, the stack and the pad before the step.
-/

namespace ChipEight

theorem wrapAddress_eq_mod (n : Nat) : wrapAddress n = n % 4096 := by
  unfold wrapAddress
  simp only [memorySize]
  omega

theorem Instruction.nnn_lt (i : Instruction) : i.nnn < 4096 :=
  i.nnn_eq ▸ Nat.mod_lt _ (by decide)

namespace Machine

variable {m n next done : Machine} {i : Instruction}

/-! ### What the words ask for -/

def highRegister (m : Machine) (word : Nat) : Nat :=
  m.registers.get ⟨word / 256 % 16, Nat.mod_lt _ (by decide)⟩

def lowRegister (m : Machine) (word : Nat) : Nat :=
  m.registers.get ⟨word / 16 % 16, Nat.mod_lt _ (by decide)⟩

def namesDown (m : Machine) (word : Nat) : Prop :=
  m.pad.isDown ⟨m.highRegister word % 16, Nat.mod_lt _ (by decide)⟩

instance (m : Machine) (word : Nat) : Decidable (m.namesDown word) :=
  inferInstanceAs (Decidable (_ = true))

def Skips (m : Machine) (word : Nat) : Prop :=
  (word / 4096 = 3 ∧ m.highRegister word = word % 256) ∨
  (word / 4096 = 4 ∧ m.highRegister word ≠ word % 256) ∨
  ((word / 4096 = 5 ∧ word % 16 = 0) ∧ m.highRegister word = m.lowRegister word) ∨
  ((word / 4096 = 9 ∧ word % 16 = 0) ∧ m.highRegister word ≠ m.lowRegister word) ∨
  ((word / 4096 = 0xE ∧ word % 256 = 0x9E) ∧ m.namesDown word) ∨
  ((word / 4096 = 0xE ∧ word % 256 = 0xA1) ∧ ¬ m.namesDown word)

instance (m : Machine) (word : Nat) : Decidable (m.Skips word) :=
  inferInstanceAs (Decidable (_ ∨ _))

/-- No key was released since the wait for one began, or no wait has begun. -/
def Stalls (m : Machine) : Prop :=
  m.awaitingKey = false ∨ m.pad.released = none

instance (m : Machine) : Decidable m.Stalls :=
  inferInstanceAs (Decidable (_ ∨ _))

def AwaitsKey (m : Machine) : Prop :=
  m.upcoming / 4096 = 0xF ∧ m.upcoming % 256 = 0x0A

instance (m : Machine) : Decidable m.AwaitsKey :=
  inferInstanceAs (Decidable (_ ∧ _))

/-- Where the word at the program counter leads. -/
def successor (m : Machine) : Option Nat :=
  let pc := m.registers.pc
  let word := m.upcoming
  let nnn := word % 4096
  if word / 4096 = 1 ∨ word / 4096 = 2 then some nnn
  else if word = 0x00EE then m.stack.addresses.getLast?
  else if word / 4096 = 0xB then
    let addend :=
      if m.settings.implementation = .cosmacVip then m.registers.get ⟨0, registerCount_pos⟩
      else m.highRegister word
    some ((nnn + addend) % 4096)
  else if m.AwaitsKey ∧ m.Stalls then some pc
  else if m.Skips word then some ((pc + 4) % 4096)
  else some ((pc + 2) % 4096)

/-! ### What the instructions do -/

def destination (m : Machine) (i : Instruction) : Option Nat :=
  let past (skips : Bool) : Nat := (m.registers.pc + if skips then 4 else 2) % 4096
  let vx := m.registers.get i.x
  let vy := m.registers.get i.y
  let down := m.pad.isDown (m.keyOf i.x)
  match i.operation with
  | .jump | .call => some i.nnn
  | .ret => m.stack.addresses.getLast?
  | .jumpPlus => some ((i.nnn + m.registers.get (m.jumpRegister i)) % 4096)
  | .awaitKey => some (if m.Stalls then m.registers.pc else past false)
  | .skipEqualByte => some (past (vx = i.kk))
  | .skipUnequalByte => some (past (vx ≠ i.kk))
  | .skipEqual => some (past (vx = vy))
  | .skipUnequal => some (past (vx ≠ vy))
  | .skipPressed => some (past down)
  | .skipReleased => some (past !down)
  | _ => some (past false)

theorem pc_skipIf (m : Machine) (condition : Bool) :
    (m.fetched.skipIf condition).registers.pc =
      (m.registers.pc + if condition then 4 else 2) % 4096 := by
  cases condition with
  | false => exact m.fetched_pc
  | true =>
    show wrapAddress (m.fetched.registers.pc + 2 : Nat) = (m.registers.pc + 4) % 4096
    rw [wrapAddress_eq_mod, fetched_pc]
    simp only [memorySize]
    omega

theorem pc_goto (m : Machine) (address : Nat) :
    (m.goto address).registers.pc = address % 4096 :=
  wrapAddress_eq_mod address

theorem stalls_iff :
    m.Stalls ↔ (if m.awaitingKey then m.pad else m.pad.beginWait).released = none := by
  unfold Stalls
  by_cases waits : m.awaitingKey = true
  · simp [waits]
  · simp [waits, HexPad.beginWait]

theorem executeAwaitKey_pc (range : m.InRange) (x : Register) :
    (m.fetched.executeAwaitKey x).registers.pc =
        (if m.Stalls then m.registers.pc else (m.registers.pc + 2) % 4096) ∧
      ((m.fetched.executeAwaitKey x).awaitingKey = true ↔ m.Stalls) := by
  simp only [executeAwaitKey, show m.fetched.awaitingKey = m.awaitingKey from rfl,
    show m.fetched.pad = m.pad from rfl, stalls_iff]
  split
  next none =>
    rw [if_pos none, none]
    exact ⟨congrArg Registers.pc range.fetched_back, iff_of_true rfl rfl⟩
  next some =>
    rw [some, if_neg (Option.some_ne_none _)]
    exact ⟨m.fetched_pc, iff_of_false Bool.false_ne_true (Option.some_ne_none _)⟩

theorem pc_executeAddIndex (m : Machine) (x : Register) :
    (m.executeAddIndex x).registers.pc = m.registers.pc := by
  unfold executeAddIndex
  dsimp only
  split <;> rfl

theorem pc_storeAtIndex {values : List Nat} (stored : storeAtIndex values m = .ok ⟨⟩ done) :
    done.registers.pc = m.registers.pc := by
  rw [storeAtIndex, Attempt.get_bind] at stored
  obtain ⟨memory, _, rfl⟩ := Attempt.within_eq_ok stored
  rfl

theorem pc_executeLoad {x : Register} (loaded : executeLoad x m = .ok ⟨⟩ done) :
    done.registers.pc = m.registers.pc := by
  rw [executeLoad, Attempt.get_bind] at loaded
  obtain ⟨bytes, _, read, rest⟩ := Attempt.bind_eq_ok loaded
  obtain ⟨_, rfl⟩ := Attempt.lift_eq_ok read
  cases rest
  exact Registers.pc_loadFrom 0 bytes

theorem pc_execute (range : m.InRange) (noCall : i.operation ≠ .call)
    (noReturn : i.operation ≠ .ret) (executed : execute i m.fetched = .ok ⟨⟩ done) :
    m.destination i = some done.registers.pc := by
  have past : (m.registers.pc + 2) % 4096 = m.fetched.registers.pc := m.fetched_pc.symm
  simp only [execute, Attempt.get_bind] at executed
  unfold destination
  cases op : i.operation with
  | call => exact absurd op noCall
  | ret => exact absurd op noReturn
  | draw =>
    simp only [op] at executed ⊢
    obtain ⟨_, _, _, rfl⟩ := executeDraw_eq_ok executed
    exact congrArg some past
  | decimal | store =>
    simp only [op] at executed ⊢
    rw [pc_storeAtIndex executed]
    exact congrArg some past
  | load =>
    simp only [op] at executed ⊢
    rw [pc_executeLoad executed]
    exact congrArg some past
  | jump =>
    simp only [op] at executed ⊢
    cases executed
    rw [pc_goto, Nat.mod_eq_of_lt i.nnn_lt]
  | jumpPlus =>
    simp only [op] at executed ⊢
    cases executed
    exact congrArg some (pc_goto _ (i.nnn + m.registers.get (m.jumpRegister i))).symm
  | skipEqualByte | skipUnequalByte | skipEqual | skipUnequal | skipPressed | skipReleased =>
    simp only [op] at executed ⊢
    cases executed
    rw [pc_skipIf]
    rfl
  | awaitKey =>
    simp only [op] at executed ⊢
    cases executed
    rw [(executeAwaitKey_pc range i.x).1]
    rfl
  | addIndex =>
    simp only [op] at executed ⊢
    cases executed
    rw [pc_executeAddIndex]
    exact congrArg some past
  | _ =>
    simp only [op] at executed ⊢
    cases executed
    exact congrArg some past

/-! ### Words and instructions -/

theorem keyOf_eq (m : Machine) (x : Register) :
    m.keyOf x = ⟨m.registers.get x % keyCount, Nat.mod_lt _ (by decide)⟩ := by
  apply Fin.ext
  show ((m.registers.get x : Int) % (keyCount : Nat)).toNat = m.registers.get x % keyCount
  omega

theorem successor_eq_destination (decoded : Instruction.decode m.upcoming = .ok i) :
    m.successor = m.destination i := by
  have small := m.wordAt_lt m.registers.pc
  have reads {o : Operation} {P : Prop} (fits : o.Fits m.upcoming ↔ P) : P ↔ i.operation = o :=
    Instruction.iff_operation_eq decoded fits
  -- what is asked of the word is now asked of the operation
  simp only [successor, AwaitsKey, Skips, reads (Operation.fits_jump small),
    reads (Operation.fits_call small), reads (Operation.fits_ret small),
    reads (Operation.fits_jumpPlus small), reads (Operation.fits_awaitKey small),
    reads (Operation.fits_skipEqualByte small), reads (Operation.fits_skipUnequalByte small),
    reads (Operation.fits_skipEqual small), reads (Operation.fits_skipUnequal small),
    reads (Operation.fits_skipPressed small), reads (Operation.fits_skipReleased small)]
  have word : i.word = m.upcoming := word_of_decode decoded
  have nnn : m.upcoming % 4096 = i.nnn := by rw [i.nnn_eq, word]
  have kk : m.upcoming % 256 = i.kk := by rw [i.kk_eq, word]
  have high : m.highRegister m.upcoming = m.registers.get i.x := by rw [i.x_eq, ← word]; rfl
  have low : m.lowRegister m.upcoming = m.registers.get i.y := by rw [i.y_eq, ← word]; rfl
  have down : m.namesDown m.upcoming ↔ m.pad.isDown (m.keyOf i.x) := by
    rw [keyOf_eq, ← high]
    rfl
  have past (condition : Prop) [Decidable condition] :
      (if condition then some ((m.registers.pc + 4) % 4096)
        else some ((m.registers.pc + 2) % 4096)) =
      some ((m.registers.pc + if condition then 4 else 2) % 4096) := by
    split <;> rfl
  have addend : (if m.settings.implementation = .cosmacVip
      then m.registers.get ⟨0, registerCount_pos⟩ else m.registers.get i.x) =
      m.registers.get (m.jumpRegister i) := by
    unfold jumpRegister Implementation.jumpUsesVx
    cases m.settings.implementation <;> rfl
  simp only [nnn, kk, high, low, down, addend]
  unfold destination
  cases op : i.operation with
  | awaitKey => by_cases stalls : m.Stalls <;> simp [stalls]
  | _ => simp [past]

/-! ### Steps -/

structure LeadsOn (m next : Machine) : Prop where
  successor : m.successor = some next.registers.pc
  called : m.upcoming / 4096 = 2 →
    next.stack.addresses = m.stack.addresses ++ [(m.registers.pc + 2) % 4096]
  returned : m.upcoming = 0x00EE →
    m.stack.addresses = next.stack.addresses ++ [next.registers.pc]
  stalled : m.AwaitsKey → (next.awaitingKey = true ↔ m.Stalls)

theorem leadsOn_of_step (range : m.InRange) (stepped : m.step = .ok none next) :
    m.LeadsOn next := by
  have ready := ready_of_step range stepped
  cases outcome : m.stop? with
  | some failure =>
    obtain ⟨_, _, stops⟩ := step_of_stop range ready.running outcome
    rw [stepped] at stops
    cases stops
  | none =>
    obtain ⟨i, done, decoded, executed, goes, _⟩ := step_of_go range ready.running outcome
    refine ⟨?_, fun call => (call_of_step range stepped call).1, return_of_step range stepped,
      fun awaits => ?_⟩
    · rw [successor_eq_destination decoded]
      by_cases call : i.operation = .call
      · have word : m.upcoming / 4096 = 2 := (Operation.fits_call (m.wordAt_lt _)).mp
          ((Instruction.operation_eq_iff decoded _).mp call)
        have nnn : i.nnn = m.upcoming % 4096 :=
          i.nnn_eq.trans (congrArg (· % 4096) (word_of_decode decoded))
        simp only [destination, call, nnn, (call_of_step range stepped word).2]
      · by_cases ret : i.operation = .ret
        · have word : m.upcoming = 0x00EE := (Operation.fits_ret (m.wordAt_lt _)).mp
            ((Instruction.operation_eq_iff decoded _).mp ret)
          simp only [destination, ret, return_of_step range stepped word, List.getLast?_concat]
        · have leads := pc_execute range call ret executed
          rw [stepped] at goes
          cases goes
          exact leads
    · have op : i.operation = .awaitKey := (Instruction.operation_eq_iff decoded _).mpr
        ((Operation.fits_awaitKey (m.wordAt_lt _)).mpr awaits)
      simp only [execute, Attempt.get_bind, op] at executed
      cases executed
      rw [stepped] at goes
      cases goes
      exact (executeAwaitKey_pc range i.x).2

/-! ### Complementary skips -/

/-- Two skips with the same operands and opposite conditions. -/
def Opposed (word other : Nat) : Prop :=
  (word / 4096 = 3 ∧ other = word + 0x1000) ∨
  ((word / 4096 = 5 ∧ word % 16 = 0) ∧ other = word + 0x4000) ∨
  ((word / 4096 = 0xE ∧ word % 256 = 0x9E) ∧ other = word + 3)

theorem Opposed.skips_iff {word other : Nat} (opposed : Opposed word other) (m : Machine) :
    m.Skips other ↔ ¬ m.Skips word := by
  unfold Skips namesDown highRegister lowRegister
  rcases opposed with ⟨first, rfl⟩ | ⟨⟨first, last⟩, rfl⟩ | ⟨⟨first, last⟩, rfl⟩
  · have digit : (word + 0x1000) / 4096 = 4 := by omega
    have x : (word + 0x1000) / 256 % 16 = word / 256 % 16 := by omega
    have kk : (word + 0x1000) % 256 = word % 256 := by omega
    simp [digit, first, x, kk]
  · have digit : (word + 0x4000) / 4096 = 9 := by omega
    have low : (word + 0x4000) % 16 = 0 := by omega
    have x : (word + 0x4000) / 256 % 16 = word / 256 % 16 := by omega
    have y : (word + 0x4000) / 16 % 16 = word / 16 % 16 := by omega
    simp [digit, low, first, last, x, y]
  · have digit : (word + 3) / 4096 = 0xE := by omega
    have low : (word + 3) % 256 = 0xA1 := by omega
    have x : (word + 3) / 256 % 16 = word / 256 % 16 := by omega
    simp [digit, low, first, last, x]

theorem Skips.congr {word : Nat} (registers : n.registers = m.registers) (pad : n.pad = m.pad) :
    n.Skips word ↔ m.Skips word := by
  simp only [Skips, namesDown, highRegister, lowRegister, registers, pad]

def BeginsSkip (word : Nat) : Prop :=
  word / 4096 = 3 ∨ word / 4096 = 4 ∨ word / 4096 = 5 ∨ word / 4096 = 9 ∨ word / 4096 = 0xE

theorem Opposed.begins {word other : Nat} (opposed : Opposed word other) :
    BeginsSkip word ∧ BeginsSkip other := by
  unfold Opposed at opposed
  unfold BeginsSkip
  omega

theorem successor_of_begins (begins : BeginsSkip m.upcoming) :
    m.successor = some ((m.registers.pc + if m.Skips m.upcoming then 4 else 2) % 4096) := by
  unfold BeginsSkip at begins
  have noJump : ¬ (m.upcoming / 4096 = 1 ∨ m.upcoming / 4096 = 2) := by omega
  have noReturn : m.upcoming ≠ 0x00EE := by omega
  have noSum : m.upcoming / 4096 ≠ 0xB := by omega
  have noWait : ¬ (m.AwaitsKey ∧ m.Stalls) := fun ⟨awaits, _⟩ => by
    unfold AwaitsKey at awaits
    omega
  simp only [successor, if_neg noJump, if_neg noReturn, if_neg noSum, if_neg noWait]
  split <;> rfl

theorem Ready.step_accepted (ready : m.Ready) {o : Operation} (fits : o.Fits m.upcoming)
    (accepted : m.fetched.refusal? ⟨o, m.upcoming⟩ = none) : ∃ next, m.step = .ok none next := by
  obtain ⟨_, _, _, _, stepped, _⟩ := step_of_go ready.range ready.running
    ((stop?_of_decode ready.before (Ready.decode fits)).trans accepted)
  exact ⟨_, stepped⟩

theorem Opposed.fit {word other : Nat} (opposed : Opposed word other) (small : other < 0x10000) :
    ∃ o p : Operation, (o.Fits word ∧ ∀ m : Machine, m.refusal? ⟨o, word⟩ = none) ∧
      p.Fits other ∧ ∀ m : Machine, m.refusal? ⟨p, other⟩ = none := by
  have less : word < 0x10000 := by
    unfold Opposed at opposed
    omega
  rcases opposed with ⟨first, sum⟩ | ⟨both, sum⟩ | ⟨both, sum⟩
  · exact ⟨.skipEqualByte, .skipUnequalByte,
      ⟨(Operation.fits_skipEqualByte less).mpr first, fun _ => rfl⟩,
      (Operation.fits_skipUnequalByte small).mpr (by omega), fun _ => rfl⟩
  · exact ⟨.skipEqual, .skipUnequal,
      ⟨(Operation.fits_skipEqual less).mpr both, fun _ => rfl⟩,
      (Operation.fits_skipUnequal small).mpr (by omega), fun _ => rfl⟩
  · exact ⟨.skipPressed, .skipReleased,
      ⟨(Operation.fits_skipPressed less).mpr both, fun _ => rfl⟩,
      (Operation.fits_skipReleased small).mpr (by omega), fun _ => rfl⟩

theorem Opposed.steps (opposed : Opposed m.upcoming n.upcoming) (ready : m.Ready) (twin : n.Ready)
    (registers : n.registers = m.registers) (pad : n.pad = m.pad) :
    ∃ next other, m.step = .ok none next ∧ n.step = .ok none other ∧
      ((next.registers.pc = (m.registers.pc + 4) % 4096 ∧
          other.registers.pc = (m.registers.pc + 2) % 4096) ∨
        (next.registers.pc = (m.registers.pc + 2) % 4096 ∧
          other.registers.pc = (m.registers.pc + 4) % 4096)) := by
  obtain ⟨_, _, ⟨fits, accepted⟩, fits', accepted'⟩ := opposed.fit (n.wordAt_lt n.registers.pc)
  obtain ⟨next, stepped⟩ := ready.step_accepted fits (accepted _)
  obtain ⟨other, stepped'⟩ := twin.step_accepted fits' (accepted' _)
  refine ⟨next, other, stepped, stepped', ?_⟩
  have first := (leadsOn_of_step ready.range stepped).successor
  have second := (leadsOn_of_step twin.range stepped').successor
  rw [successor_of_begins opposed.begins.1, Option.some_inj] at first
  rw [successor_of_begins opposed.begins.2, Option.some_inj, registers] at second
  rw [← first, ← second]
  have choice : n.Skips n.upcoming ↔ ¬ m.Skips m.upcoming :=
    (Skips.congr registers pad).trans (opposed.skips_iff m)
  by_cases skips : m.Skips m.upcoming
  · left
    rw [if_pos skips, if_neg fun both => choice.mp both skips]
    exact ⟨rfl, rfl⟩
  · right
    rw [if_neg skips, if_pos (choice.mpr skips)]
    exact ⟨rfl, rfl⟩

/-- A step that ends without a fault goes where the word at the program counter leads. Of two
opposite skips that find the same registers and the same keys exactly one skips. -/
theorem step_leads_to_successor (reachable : Reachable m) :
    (∀ next, m.step = .ok none next → m.LeadsOn next) ∧
      ∀ n, Reachable n → m.fault = none → n.fault = none → m.registers.pc ≠ 0xFFF →
        n.registers = m.registers → n.pad = m.pad → Opposed m.upcoming n.upcoming →
        ∃ next other, m.step = .ok none next ∧ n.step = .ok none other ∧
          ((next.registers.pc = (m.registers.pc + 4) % 4096 ∧
              other.registers.pc = (m.registers.pc + 2) % 4096) ∨
            (next.registers.pc = (m.registers.pc + 2) % 4096 ∧
              other.registers.pc = (m.registers.pc + 4) % 4096)) := by
  refine ⟨fun next stepped => leadsOn_of_step reachable.inRange stepped, ?_⟩
  intro n twin running running' before registers pad opposed
  exact opposed.steps ⟨reachable.inRange, running, before⟩
    ⟨twin.inRange, running', registers ▸ before⟩ registers pad

theorem withProgram_ready (settings : Settings) (random : Supply UInt8) (program : List UInt8)
    (fits : program.length ≤ maxRomSize) (long : 1 < program.length) :
    (withProgram settings random program).Ready ∧
      (withProgram settings random program).registers = {} ∧
      (withProgram settings random program).pad = {} ∧
      (withProgram settings random program).upcoming =
        (program.getD 0 0).toNat * 256 + (program.getD 1 0).toNat := by
  have loaded := withProgram_eq settings random fits
  have registers : (withProgram settings random program).registers = {} := by rw [loaded]; rfl
  refine ⟨⟨(withProgram_reachable settings random program).inRange, by rw [loaded]; rfl, ?_⟩,
    registers, by rw [loaded]; rfl, ?_⟩
  · rw [registers]
    decide
  · rw [upcoming, registers]
    exact wordAt_withProgram settings random fits 0 long

/-- A new machine compares its first register with zero. -/
theorem step_leads_to_successor_at_skip :
    ∃ next other, (withProgram {} (.cycle 0 []) [0x30, 0x00]).step = .ok none next ∧
      (withProgram {} (.cycle 0 []) [0x40, 0x00]).step = .ok none other ∧
      next.registers.pc = 0x204 ∧ other.registers.pc = 0x202 := by
  obtain ⟨ready, registers, pad, word⟩ :=
    withProgram_ready {} (.cycle 0 []) [0x30, 0x00] (by decide) (by decide)
  obtain ⟨ready', registers', pad', word'⟩ :=
    withProgram_ready {} (.cycle 0 []) [0x40, 0x00] (by decide) (by decide)
  have opposed : Opposed (withProgram {} (.cycle 0 []) [0x30, 0x00]).upcoming
      (withProgram {} (.cycle 0 []) [0x40, 0x00]).upcoming := by
    rw [word, word']
    exact .inl ⟨rfl, rfl⟩
  have equal : (withProgram {} (.cycle 0 []) [0x30, 0x00]).Skips
      (withProgram {} (.cycle 0 []) [0x30, 0x00]).upcoming := by
    rw [word, Skips, highRegister, registers]
    exact .inl ⟨rfl, rfl⟩
  obtain ⟨leads, others⟩ := step_leads_to_successor (withProgram_reachable _ _ _)
  obtain ⟨next, other, stepped, goes, choice⟩ := others _ (withProgram_reachable _ _ _)
    ready.running ready'.running ready.before (registers'.trans registers.symm)
    (pad'.trans pad.symm) opposed
  have skipped := (leads next stepped).successor
  rw [successor_of_begins opposed.begins.1, if_pos equal, registers, Option.some_inj] at skipped
  rw [registers] at choice
  refine ⟨next, other, stepped, goes, skipped.symm, ?_⟩
  rcases choice with ⟨_, second⟩ | ⟨first, _⟩
  · exact second
  · exact absurd (skipped.trans first) (by decide)

end Machine

end ChipEight
