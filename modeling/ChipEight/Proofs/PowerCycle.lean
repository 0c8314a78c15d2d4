import ChipEight.Proofs.Requests
import ChipEight.Proofs.Twins

/-!
A reset is as good as a new machine with the same settings into which the program that was loaded
last is loaded again, but for how far the random sources have got.
-/

namespace ChipEight

open EStateM (Result)

def Supply.Alike {α : Type} (s t : Supply α) : Prop :=
  ∀ k, s.item (s.taken + k) = t.item (t.taken + k)

theorem Supply.Alike.next {α : Type} {s t : Supply α} (alike : s.Alike t) :
    s.next.1 = t.next.1 ∧ s.next.2.Alike t.next.2 := by
  refine ⟨alike 0, fun k => ?_⟩
  have later := alike (1 + k)
  rwa [← Nat.add_assoc, ← Nat.add_assoc] at later

def Supply.rest {α : Type} (s : Supply α) : Supply α where
  item k := s.item (s.taken + k)

theorem Supply.alike_rest {α : Type} (s : Supply α) : s.Alike s.rest :=
  fun k => congrArg (fun k => s.item (s.taken + k)) (Nat.zero_add k).symm

namespace Machine

open Attempt (Matched)

/-! ### Machines that cannot be told apart -/

/-- The machines differ in nothing but their random sources, and these have the same bytes to
come. -/
inductive Alike (m : Machine) : Machine → Prop
  | intro {random : Supply UInt8} (alike : m.random.Alike random) : Alike m { m with random }

variable {m n : Machine}

theorem alike_twinned : Twinned Alike where
  same := by
    rintro m _ ⟨alike⟩
    exact ⟨_, _, _, _, rfl⟩
  change := by
    rintro m _ memory registers stack screen rom fault awaitingKey cycles ⟨alike⟩
    exact .intro alike

theorem Alike.concur (alike : Alike m n) (i : Instruction) : Concur Alike m n i := by
  obtain ⟨same⟩ := alike
  unfold Concur
  cases i.operation with
  | random => exact ⟨same.next.1, .intro same.next.2⟩
  | awaitKey =>
    simp only [executeAwaitKey]
    cases (if m.awaitingKey then m.pad else m.pad.beginWait).released with
    | none => exact .intro same
    | some key => exact .intro same
  | setDelay => exact .intro same
  | setSound => exact .intro same
  | _ => first | rfl | trivial

theorem Alike.step (alike : Alike m n) : Matched Alike m.step n.step :=
  alike_twinned.step alike fun i _ =>
    (alike_twinned.setRegisters alike (by cases alike; rfl) : Alike m.fetched n.fetched).concur i

theorem Alike.run (alike : Alike m n) (count : Nat) : Matched Alike (m.run count) (n.run count) :=
  run_matched alike fun _ _ _ _ _ related => related.step

theorem obey_random (m : Machine) (random : Supply UInt8) (word : String) (args : List Value) :
    { m with random }.obey word args =
      (m.obey word args).map fun (outcome, after) => (outcome, { after with random }) := by
  -- no part looks at the random source, so it can be exchanged behind the parts' replies
  simp only [obey, Monitor.within, Option.orElse_eq_orElse, Option.orElse_eq_or, Option.map_or,
    Option.map_map]
  rfl

theorem Alike.command (alike : Alike m n) (word : String) (args : List Value) :
    Matched Alike (command word args m) (command word args n) := by
  obtain @⟨random, same⟩ := alike
  unfold Machine.command
  rw [m.obey_random random]
  cases obeyed : m.obey word args with
  | none => exact .ok (Alike.intro same)
  | some reply =>
    obtain ⟨_, _, _, _, _, changed⟩ := m.obey_parts word args reply obeyed
    obtain ⟨outcome, after⟩ := reply
    obtain rfl : after = _ := changed
    cases outcome with
    | ok value => exact .ok (Alike.intro same)
    | error failure => exact .error (Alike.intro same)

theorem Alike.reset (alike : Alike m n) : Matched Alike (reset m) (reset n) := by
  have wiped : Alike m.wiped n.wiped := by
    obtain ⟨same⟩ := alike
    exact .intro same
  refine .bind (.ok wiped) fun _ _ _ alike => ?_
  refine .bind (alike_twinned.onMemory alike _) fun _ m n alike => ?_
  have remembered : n.rom = m.rom := by
    obtain ⟨_⟩ := alike
    rfl
  rw [Attempt.get_bind, Attempt.get_bind, remembered]
  cases m.rom with
  | none => exact .ok alike
  | some program => exact alike_twinned.onMemory alike _

/-- Whatever is asked of them, machines that cannot be told apart answer the same and stay so. -/
theorem Alike.serve (alike : Alike m n) (request : Request) :
    Matched Alike (serve request m) (serve request n) := by
  cases request with
  | loadFont data =>
    exact .bind (alike_twinned.onMemory alike _) fun _ _ _ alike => .ok alike
  | loadRom program =>
    refine .bind (.lift alike _) fun bytes _ _ alike => .bind ?_ fun _ _ _ alike => .ok alike
    refine .bind (alike_twinned.onMemory alike _) fun _ _ _ alike => ?_
    obtain ⟨same⟩ := alike
    exact .ok (.intro same)
  | configure settings =>
    obtain ⟨same⟩ := alike
    exact .ok (.intro same)
  | reset => exact .bind alike.reset fun _ _ _ alike => .ok alike
  | renew part =>
    obtain ⟨same⟩ := alike
    cases part <;> exact .ok (.intro same)
  | fetch => exact .bind (alike_twinned.fetch alike) fun _ _ _ alike => .ok alike
  | execute i =>
    exact .bind (alike_twinned.execute alike (alike.concur i)) fun _ _ _ alike => .ok alike
  | step => exact .bind alike.step fun _ _ _ alike => .ok alike
  | run count => exact .bind (alike.run count) fun _ _ _ alike => .ok alike
  | read address length =>
    obtain ⟨memory, _⟩ := alike_twinned.shared alike
    simp only [Machine.serve, Attempt.get_bind, memory]
    exact .bind (.lift alike _) fun _ _ _ alike => .ok alike
  | write address values =>
    exact .bind (alike_twinned.onMemory alike _) fun _ _ _ alike => .ok alike
  | command word args => exact alike.command word args

theorem Alike.complyAll (alike : Alike m n) (requests : List Request) :
    Alike (m.complyAll requests) (n.complyAll requests) := by
  induction requests generalizing m n with
  | nil => exact alike
  | cons request requests ih => exact ih (alike.serve request).left

theorem Alike.answer (alike : Alike m n) (request : Request) :
    m.answer request = n.answer request :=
  (alike.serve request).reply

/-! ### The program loaded last -/

def loads (m : Machine) : Request → Option (List UInt8)
  | .loadRom program =>
    match m.answer (.loadRom program) with
    | .ok _ => (Rom.ofValue program).toOption
    | .error _ => none
  | _ => none

theorem loads_of_passing {request : Request} (passing : request.passing) :
    m.loads request = none := by
  cases request with
  | loadRom | configure => cases passing
  | _ => rfl

def lastLoaded : Machine → List Request → Option (List UInt8)
  | _, [] => none
  | m, request :: requests => (lastLoaded (m.comply request) requests).or (m.loads request)

/-- Memory has its size, and the program that the machine remembers fits into it. -/
structure Bootable (m : Machine) : Prop where
  memory : m.memory.size = memorySize
  rom : ∀ program ∈ m.rom, program.length ≤ maxRomSize

theorem bootable_lasting : Lasting Bootable where
  change _ _ _ _ _ _ _ bootable := { bootable with }
  refill _ size bootable := { bootable with memory := size.trans bootable.memory }
  account _ _ bootable := { bootable with }

theorem bootable_new (settings : Settings) (random : Supply UInt8) :
    (new settings random).Bootable where
  memory := (InRange.new settings random).memory
  rom := by
    intro program remembered
    cases remembered

theorem rom_lasting (rom : Option (List UInt8)) : Lasting fun m => m.rom = rom where
  change _ _ _ _ _ _ _ same := same
  refill _ _ same := same
  account _ _ same := same

theorem Bootable.loadRom (bootable : m.Bootable) (program : Value) :
    (m.comply (.loadRom program)).Bootable ∧
      (m.comply (.loadRom program)).rom = (m.loads (.loadRom program)).or m.rom := by
  simp only [Machine.comply, loads, answer]
  cases given : Rom.ofValue program with
  | error failure =>
    have refused : serve (.loadRom program) m = .error failure m := by
      simp only [serve, given]
      rfl
    rw [refused]
    exact ⟨bootable, rfl⟩
  | ok bytes =>
    by_cases fits : bytes.length ≤ maxRomSize
    · have loaded := loadRom_of_fits bootable.memory fits
      have served : serve (.loadRom program) m = .ok .done { m with
          memory := m.memory.splice romStart bytes
          rom := some bytes } := by
        simp only [serve, given]
        exact Attempt.bind_of_ok loaded
      rw [served]
      refine ⟨⟨?_, ?_⟩, rfl⟩
      · have room := (program_fits_iff bootable.memory).mpr fits
        exact (Memory.size_splice _ _ _ room).trans bootable.memory
      · intro remembered same
        cases same
        exact fits
    · have refused : serve (.loadRom program) m =
          .error (Memory.outside romStart bytes.length) m := by
        simp only [serve, given]
        exact Attempt.bind_of_error (x := Machine.loadRom bytes)
          (loadRom_of_long bootable.memory fits)
      rw [refused]
      exact ⟨bootable, rfl⟩

theorem Bootable.comply (bootable : m.Bootable) (request : Request) :
    (m.comply request).Bootable ∧ (m.comply request).rom = (m.loads request).or m.rom := by
  cases request with
  | loadRom program => exact bootable.loadRom program
  | configure settings => exact ⟨{ bootable with }, rfl⟩
  | loadFont | reset | renew | fetch | execute | step | run | read | write | command =>
    rw [loads_of_passing rfl, Option.none_or]
    exact ⟨bootable_lasting.comply bootable rfl, (rom_lasting m.rom).comply rfl rfl⟩

theorem Bootable.complyAll (bootable : m.Bootable) (requests : List Request) :
    (m.complyAll requests).Bootable ∧
      (m.complyAll requests).rom = (lastLoaded m requests).or m.rom := by
  induction requests generalizing m with
  | nil => exact ⟨bootable, rfl⟩
  | cons request requests ih =>
    obtain ⟨kept, remembered⟩ := bootable.comply request
    obtain ⟨last, rom⟩ := ih kept
    refine ⟨last, rom.trans ?_⟩
    rw [remembered, lastLoaded, Option.or_assoc]

/-! ### Switching off and on -/

theorem fontBytes_bytes (position : Nat) (bytes : List UInt8) :
    Memory.fontBytes position (bytes.map fun b => .whole b.toNat) = .ok bytes := by
  induction bytes generalizing position with
  | nil => rfl
  | cons b bytes ih =>
    have byte : Memory.byte? (.whole b.toNat) = some b := by
      have small := b.toNat_lt
      have same : lowByte b.toNat = b := UInt8.toNat_inj.mp (by rw [toNat_lowByte]; omega)
      simp only [Memory.byte?, Value.toInt?]
      rw [if_pos (by omega), same]
    simp only [List.map_cons, Memory.fontBytes, byte, ih]
    rfl

theorem storeFont_font {memory : Memory} (size : memory.size = memorySize) :
    Memory.storeFont (font.map fun b => .whole b.toNat) memory =
      .ok ⟨⟩ (memory.splice fontStart font) := by
  have inside : memory.InBounds fontStart font.length := by
    rw [Memory.inBounds_natCast, size]
    decide
  rw [Memory.storeFont, fontBytes_bytes]
  exact Memory.write_of_inBounds inside

theorem loadFont_wiped (bootable : m.Bootable) :
    loadFont (font.map fun b => .whole b.toNat) m.wiped =
      .ok ⟨⟩ { new m.settings m.random with rom := m.rom } := by
  have blank : m.wiped.memory = Memory.zeroed memorySize := congrArg Memory.zeroed bootable.memory
  have size : m.wiped.memory.size = memorySize := by rw [blank, Memory.size_zeroed]
  have renewed : { m.wiped with memory := m.wiped.memory.splice fontStart font } =
      { new m.settings m.random with rom := m.rom } := by
    rw [blank]
    rfl
  rw [loadFont, onMemory, Attempt.within_of_ok (storeFont_font size), renewed]

def boot : Option (List UInt8) → Attempt Machine Unit
  | none => return ()
  | some program => loadRom program

def booted (m : Machine) : Option (List UInt8) → Machine
  | none => m
  | some program => { m with
      memory := m.memory.splice romStart program
      rom := some program }

theorem boot_of_fits {rom : Option (List UInt8)} (size : m.memory.size = memorySize)
    (fits : ∀ program ∈ rom, program.length ≤ maxRomSize) : boot rom m = .ok ⟨⟩ (m.booted rom) := by
  cases rom with
  | none => rfl
  | some program => exact loadRom_of_fits size (fits program rfl)

theorem restore_of_fits {rom : Option (List UInt8)} (size : m.memory.size = memorySize)
    (forgotten : m.rom = none) (fits : ∀ program ∈ rom, program.length ≤ maxRomSize) :
    (do
      match (← get).rom with
      | some program => onMemory (Memory.storeRom program)
      | none => return () : Attempt Machine Unit) { m with rom } = .ok ⟨⟩ (m.booted rom) := by
  rw [Attempt.get_bind]
  cases rom with
  | none =>
    have same : { m with rom := none } = m := by rw [← forgotten]
    exact congrArg (Result.ok ()) same
  | some program =>
    exact storeRom_of_fits (m := { m with rom := some program }) size (fits program rfl)

theorem reset_of_bootable (bootable : m.Bootable) :
    reset m = .ok ⟨⟩ ((new m.settings m.random).booted m.rom) := by
  unfold reset
  rw [Attempt.bind_of_ok (Attempt.modify_apply wiped m),
    Attempt.bind_of_ok (loadFont_wiped bootable)]
  exact restore_of_fits (bootable_new m.settings m.random).memory rfl bootable.rom

theorem booted_new (settings : Settings) (random further : Supply UInt8)
    (rom : Option (List UInt8)) :
    (new settings further).booted rom =
      { (new settings random).booted rom with random := further } := by
  cases rom with
  | none => rfl
  | some program => rfl

theorem booted_new_random (settings : Settings) (random : Supply UInt8)
    (rom : Option (List UInt8)) : ((new settings random).booted rom).random = random := by
  cases rom with
  | none => rfl
  | some program => rfl

/-- After whatever history, a reset succeeds and is as good as a new machine with the program that
was loaded last: the two differ in their random sources alone, and if these have the same bytes to
come, nothing that is asked later tells the machines apart. -/
theorem reset_is_power_cycle (settings : Settings) (random : Supply UInt8) (history : List Request)
    (further : Supply UInt8) :
    let m := (new settings random).complyAll history
    ∃ renewed fresh, reset m = .ok ⟨⟩ renewed ∧
      boot (lastLoaded (new settings random) history) (new m.settings further) = .ok ⟨⟩ fresh ∧
      fresh = { renewed with random := further } ∧
      (m.random.Alike further → ∀ later,
        Alike (renewed.complyAll later) (fresh.complyAll later) ∧
        ∀ request, (renewed.complyAll later).answer request =
          (fresh.complyAll later).answer request) := by
  intro m
  obtain ⟨bootable, rom⟩ := (bootable_new settings random).complyAll history
  have remembered : m.rom = lastLoaded (new settings random) history := rom.trans Option.or_none
  have renews := reset_of_bootable bootable
  have boots := boot_of_fits (bootable_new m.settings further).memory bootable.rom
  rw [remembered] at renews boots
  rw [booted_new m.settings m.random further] at boots
  have drawn := booted_new_random m.settings m.random (lastLoaded (new settings random) history)
  generalize (new m.settings m.random).booted _ = renewed at renews boots drawn
  refine ⟨renewed, { renewed with random := further }, renews, boots, rfl, fun same later => ?_⟩
  have alike : Alike renewed { renewed with random := further } := .intro (drawn ▸ same)
  exact ⟨alike.complyAll later, (alike.complyAll later).answer⟩

/-- The history loads a short program, then fails to load a program that is too long and a font that
holds no byte. -/
theorem reset_is_power_cycle_after_failed_loads :
    let history := [.loadRom (.list [.whole 0xC0, .whole 0xFF]), .step, .loadRom (.whole 4000),
      .loadFont [.whole 256], .configure {}, .command "press" [.whole 3]]
    let m := (new {} (.cycle 0 [7, 9])).complyAll history
    ∃ renewed fresh, reset m = .ok ⟨⟩ renewed ∧
      boot (lastLoaded (new {} (.cycle 0 [7, 9])) history) (new m.settings m.random.rest) =
        .ok ⟨⟩ fresh ∧
      fresh = { renewed with random := m.random.rest } ∧
      ∀ later, Alike (renewed.complyAll later) (fresh.complyAll later) ∧
        ∀ request, (renewed.complyAll later).answer request =
          (fresh.complyAll later).answer request := by
  intro history m
  obtain ⟨renewed, fresh, renews, boots, same, indistinguishable⟩ :=
    reset_is_power_cycle {} (.cycle 0 [7, 9]) history m.random.rest
  exact ⟨renewed, fresh, renews, boots, same, indistinguishable (Supply.alike_rest m.random)⟩

end Machine

end ChipEight
