import ChipEight.Proofs.Keeps
import ChipEight.Proofs.Stepping

/-!
Everything that can be done to a machine from outside, in any order and whether it succeeds or
fails, keeps it in range.
-/

namespace ChipEight

namespace Machine

inductive Action where
  | loadFont (data : List Value)
  | loadRom (program : List UInt8)
  | configure (settings : Settings)
  | reset
  | step
  | run (n : Nat)
  | execute (i : Instruction)
  | press (key : Int)
  | release (key : Int)
  | setDelay (n : Int)
  | setSound (n : Int)
  | countDown

def perform (m : Machine) : Action → Machine
  | .loadFont data => Attempt.left (loadFont data m)
  | .loadRom program => Attempt.left (loadRom program m)
  | .configure settings => m.configure settings
  | .reset => Attempt.left (reset m)
  | .step => Attempt.left m.step
  | .run n => Attempt.left (m.run n)
  | .execute i => Attempt.left (execute i m)
  | .press key => { m with pad := m.pad.press (Key.ofInt key) }
  | .release key => { m with pad := m.pad.release (Key.ofInt key) }
  | .setDelay n => { m with timers := m.timers.setDelay n }
  | .setSound n => { m with timers := m.timers.setSound n }
  | .countDown => { m with timers := m.timers.tick }

def performAll (m : Machine) (actions : List Action) : Machine :=
  actions.foldl perform m

/-- Whether an action is one of those that go on while a program runs: steps, keys and timers. -/
def Action.playing : Action → Bool
  | .step | .press _ | .release _ | .setDelay _ | .setSound _ | .countDown => true
  | _ => false

inductive Reachable : Machine → Prop
  | new (settings : Settings) (random : Supply UInt8) : Reachable (new settings random)
  | perform {m : Machine} (action : Action) (before : Reachable m) : Reachable (m.perform action)

namespace InRange

variable {m : Machine}

theorem new (settings : Settings) (random : Supply UInt8) : (new settings random).InRange where
  memory := by
    have size := Memory.size_zeroed memorySize
    exact (Memory.size_splice _ _ _ (by rw [size]; decide)).trans size
  registers := .initial
  stack := .empty
  timers := .zero
  screen := .clear {}
  pad := .allUp

theorem wiped (range : m.InRange) : m.wiped.InRange where
  memory := (Memory.size_zeroed _).trans range.memory
  registers := .initial
  stack := .empty
  timers := .zero
  screen := .clear {}
  pad := .allUp

theorem onMemory {α : Type} {x : Attempt Memory α}
    (kept : Attempt.Keeps (fun memory : Memory => memory.size = memorySize) x) :
    Attempt.Keeps InRange (onMemory x) :=
  .within (fun _ range => range.memory)
    (fun _ _ range size => { range with memory := size }) kept

theorem loadFont (data : List Value) : Attempt.Keeps InRange (loadFont data) :=
  .onMemory (Memory.Keeps.storeFont _ data)

theorem loadRom (program : List UInt8) : Attempt.Keeps InRange (loadRom program) :=
  .bind (.onMemory (Memory.Keeps.write _ romStart program)) fun _ =>
    .modify fun _ range => { range with }

theorem reset : Attempt.Keeps InRange reset := by
  refine .bind (.modify fun _ range => range.wiped) fun _ => .bind (.loadFont _) fun _ => ?_
  intro m range
  rw [Attempt.get_bind]
  cases m.rom with
  | none => exact range
  | some program => exact InRange.onMemory (Memory.Keeps.write _ romStart program) m range

theorem perform (range : m.InRange) (action : Action) : (m.perform action).InRange := by
  cases action with
  | loadFont data => exact InRange.loadFont data m range
  | loadRom program => exact InRange.loadRom program m range
  | configure settings => exact { range with }
  | reset => exact InRange.reset m range
  | step =>
    obtain ⟨answer, after, stepped, kept⟩ := range.step
    rw [Machine.perform, stepped]
    exact kept
  | run n =>
    obtain ⟨answer, after, ran, kept⟩ := range.run n
    rw [Machine.perform, ran]
    exact kept
  | execute i => exact range.execute i
  | press key => exact { range with pad := range.pad.press _ }
  | release key => exact { range with pad := range.pad.release _ }
  | setDelay n => exact { range with timers := range.timers.setDelay n }
  | setSound n => exact { range with timers := range.timers.setSound n }
  | countDown => exact { range with timers := range.timers.tick }

end InRange

theorem Reachable.inRange {m : Machine} (reachable : Reachable m) : m.InRange := by
  induction reachable with
  | new settings random => exact .new settings random
  | perform action _ range => exact range.perform action

theorem program_fits_iff {m : Machine} {program : List UInt8} (size : m.memory.size = memorySize) :
    romStart + program.length ≤ m.memory.size ↔ program.length ≤ maxRomSize := by
  rw [size]
  change 512 + program.length ≤ 4096 ↔ program.length ≤ 3584
  omega

theorem storeRom_of_fits {m : Machine} {program : List UInt8} (size : m.memory.size = memorySize)
    (fits : program.length ≤ maxRomSize) :
    onMemory (Memory.storeRom program) m =
      .ok ⟨⟩ { m with memory := m.memory.splice romStart program } :=
  Attempt.within_of_ok <| Memory.write_of_inBounds <|
    Memory.inBounds_natCast.mpr <| (program_fits_iff size).mpr fits

theorem storeRom_of_long {m : Machine} {program : List UInt8} (size : m.memory.size = memorySize)
    (long : ¬ program.length ≤ maxRomSize) :
    onMemory (Memory.storeRom program) m =
      .error (Memory.outside romStart program.length) m :=
  Attempt.within_of_error <| Memory.write_of_not_inBounds fun inside =>
    long <| (program_fits_iff size).mp <| Memory.inBounds_natCast.mp inside

theorem loadRom_of_fits {m : Machine} {program : List UInt8} (size : m.memory.size = memorySize)
    (fits : program.length ≤ maxRomSize) :
    loadRom program m = .ok ⟨⟩ { m with
      memory := m.memory.splice romStart program
      rom := some program } := by
  rw [loadRom, Attempt.bind_of_ok (storeRom_of_fits size fits)]
  rfl

theorem loadRom_of_long {m : Machine} {program : List UInt8} (size : m.memory.size = memorySize)
    (long : ¬ program.length ≤ maxRomSize) :
    loadRom program m = .error (Memory.outside romStart program.length) m := by
  rw [loadRom, Attempt.bind_of_error (storeRom_of_long size long)]

theorem wordAt_splice {m : Machine} {program : List UInt8} (range : m.InRange)
    (fits : program.length ≤ maxRomSize) (place : Nat) (within : place + 1 < program.length) :
    { m with memory := m.memory.splice romStart program }.wordAt (romStart + place) =
      (program.getD place 0).toNat * 256 + (program.getD (place + 1) 0).toNat := by
  have room : romStart + program.length ≤ m.memory.size := (program_fits_iff range.memory).mpr fits
  simp only [wordAt, Memory.getD_splice _ _ _ _ room]
  rw [if_pos (by omega), if_pos (by omega), Nat.add_sub_cancel_left, Nat.add_assoc,
    Nat.add_sub_cancel_left]

def withProgram (settings : Settings) (random : Supply UInt8) (program : List UInt8) : Machine :=
  (new settings random).perform (.loadRom program)

variable (settings : Settings) (random : Supply UInt8) {program : List UInt8}

theorem withProgram_reachable (program : List UInt8) :
    Reachable (withProgram settings random program) :=
  .perform _ (.new settings random)

theorem withProgram_eq (fits : program.length ≤ maxRomSize) :
    withProgram settings random program = { new settings random with
      memory := (new settings random).memory.splice romStart program
      rom := some program } := by
  rw [withProgram, perform, loadRom_of_fits (InRange.new settings random).memory fits, Attempt.left_ok]

theorem wordAt_withProgram (fits : program.length ≤ maxRomSize) (place : Nat)
    (within : place + 1 < program.length) :
    (withProgram settings random program).wordAt (romStart + place) =
      (program.getD place 0).toNat * 256 + (program.getD (place + 1) 0).toNat := by
  rw [withProgram_eq settings random fits]
  exact wordAt_splice (.new settings random) fits place within

theorem forall_mem_toList {α : Type} {n : Nat} {v : Vector α n} {P : α → Prop}
    (each : ∀ k : Fin n, P v[k]) : ∀ a ∈ v.toList, P a := by
  intro a member
  obtain ⟨k, bound, rfl⟩ := Vector.getElem_of_mem (Vector.mem_toList_iff.mp member)
  exact each ⟨k, bound⟩

/-- All parts of a machine have their sizes, and all that they hold is in its range. -/
structure WellFormed (m : Machine) : Prop where
  memory_size : m.memory.cells.size = 4096
  memory_bytes : ∀ b ∈ m.memory.cells, b.toNat ≤ 255
  register_count : m.registers.v.toList.length = 16
  register_bytes : ∀ n ∈ m.registers.v.toList, n ≤ 255
  index_le : m.registers.index ≤ 0xFFF
  pc_le : m.registers.pc ≤ 0xFFF
  depth_le : m.stack.depth ≤ 16
  addresses_length : m.stack.addresses.length = m.stack.depth
  addresses_le : ∀ address ∈ m.stack.addresses, address ≤ 0xFFF
  delay_le : m.timers.delay ≤ 255
  sound_le : m.timers.sound ≤ 255
  pixel_count : m.screen.cells.toList.length = 2048
  pixel_bits : ∀ cell ∈ m.screen.cells.toList, cell = 0 ∨ cell = 1
  key_count : m.pad.cells.toList.length = 16
  key_bits : ∀ cell ∈ m.pad.cells.toList, cell = 0 ∨ cell = 1
  released_le : ∀ key ∈ m.pad.released, key ≤ 15

/-- Whatever is done to a machine, it stays well-formed. -/
theorem reachable_wellFormed {m : Machine} (reachable : Reachable m) : m.WellFormed := by
  have range := reachable.inRange
  exact
    { memory_size := range.memory
      memory_bytes := fun b _ => Nat.le_of_lt_succ b.toNat_lt
      register_count := Vector.length_toList
      register_bytes := forall_mem_toList range.registers.bytes
      index_le := Nat.le_of_lt_succ range.registers.index
      pc_le := Nat.le_of_lt_succ range.registers.pc
      depth_le := range.stack.depth
      addresses_length := CallStack.addresses_length range.stack.depth
      addresses_le := fun address member => Nat.le_of_lt_succ (range.stack.addresses address member)
      delay_le := range.timers.delay
      sound_le := range.timers.sound
      pixel_count := Vector.length_toList
      pixel_bits := forall_mem_toList range.screen
      key_count := Vector.length_toList
      key_bits := forall_mem_toList range.pad.cells
      released_le := fun key recorded => Nat.le_of_lt_succ (range.pad.released key recorded) }

theorem reachable_wellFormed_in_call :
    (((new.perform (.execute ⟨.call, 0x2ABC⟩)).perform (.execute ⟨.awaitKey, 0xF30A⟩)).perform
      (.release (-1))).WellFormed :=
  reachable_wellFormed (.perform _ (.perform _ (.perform _ (.new {} _))))

end Machine

end ChipEight
