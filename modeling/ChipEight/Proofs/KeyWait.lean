import ChipEight.Proofs.Frame
import ChipEight.Proofs.Reachable

/-!
A machine that comes to an instruction that waits for a key stays there until a key is released that
was down, and then takes the key released last.
-/

namespace ChipEight

namespace Machine

variable {m : Machine} {x : Register}

inductive Event where
  | step
  | press (key : Int)
  | release (key : Int)
  | countDown

def Event.action : Event → Action
  | .step => .step
  | .press key => .press key
  | .release key => .release key
  | .countDown => .countDown

def undergo (m : Machine) (events : List Event) : Machine :=
  events.foldl (fun m event => m.perform event.action) m

def Event.released? (m : Machine) : Event → Option Key
  | .release key => if m.pad.isDown (Key.ofInt key) then some (Key.ofInt key) else none
  | _ => none

def releases (m : Machine) : List Event → List Key
  | [] => []
  | event :: events => (event.released? m).toList ++ releases (m.perform event.action) events

/-- No key is released before the last step among some events. -/
def Unanswered (m : Machine) (events : List Event) : Prop :=
  ∀ before later, events = before ++ .step :: later → releases m before = []

def stalling (m : Machine) : Machine :=
  { m with
    pad := { m.pad with released := none }
    awaitingKey := true
    cycles := m.cycles + 1 }

def taking (m : Machine) (x : Register) (key : Key) : Machine :=
  { m with
    registers := { m.registers.set x key with pc := (m.registers.pc + 2) % memorySize }
    pad := { m.pad with released := none }
    awaitingKey := false
    cycles := m.cycles + 1 }

/-- A running machine that stands at an instruction that waits for a key. -/
structure AtKeyWait (m : Machine) (x : Register) : Prop where
  range : m.InRange
  running : m.fault = none
  room : m.registers.pc ≤ 0xFFE
  word : m.wordAt m.registers.pc = 0xF00A + 256 * x

namespace AtKeyWait

theorem decode (stands : m.AtKeyWait x) :
    Instruction.decode (m.wordAt m.registers.pc) = .ok ⟨.awaitKey, m.wordAt m.registers.pc⟩ := by
  have digit : x.val < 16 := x.isLt
  refine Instruction.decode_eq_ok_iff.mpr ⟨(m.wordOf_wordAt _).symm, ?_⟩
  rw [Operation.fits_awaitKey (m.wordAt_lt _), stands.word]
  omega

theorem step (stands : m.AtKeyWait x) :
    m.step = .ok none { m.fetched.executeAwaitKey x with cycles := m.cycles + 1 } := by
  have before : m.registers.pc ≠ lastAddress := by
    have room := stands.room
    unfold lastAddress
    omega
  have register : Instruction.x ⟨.awaitKey, m.wordAt m.registers.pc⟩ = x := by
    have digit : x.val < 16 := x.isLt
    rw [Instruction.x_eq]
    apply Fin.ext
    show m.wordAt m.registers.pc / 256 % 16 = x.val
    rw [stands.word]
    omega
  have executed : cycle m = .ok ⟨⟩ (m.fetched.executeAwaitKey x) := by
    rw [cycle_of_decode stands.range before stands.decode, ← register]
    rfl
  have kept : (m.fetched.executeAwaitKey x).fixedPart = m.fixedPart :=
    (fixed_steadfast _).executeAwaitKey rfl x
  simp only [fixedPart, Prod.mk.injEq] at kept
  simp only [Machine.step, stands.running, executed, kept.2.2.2]

theorem step_stalls (stands : m.AtKeyWait x)
    (unreleased : m.awaitingKey = true → m.pad.released = none) : m.step = .ok none m.stalling := by
  have waits : (if m.awaitingKey then m.pad else m.pad.beginWait) =
      { m.pad with released := none } := by
    split
    · rename_i waiting
      rw [← unreleased waiting]
    · rfl
  have stalled : m.fetched.executeAwaitKey x =
      { m with pad := { m.pad with released := none }, awaitingKey := true } := by
    simp only [executeAwaitKey, show m.fetched.awaitingKey = m.awaitingKey from rfl,
      show m.fetched.pad = m.pad from rfl, waits, stands.range.fetched_back]
    rfl
  rw [stands.step, stalled]
  rfl

theorem step_takes (stands : m.AtKeyWait x) (waiting : m.awaitingKey = true) {key : Key}
    (released : m.pad.released = some key.val) : m.step = .ok none (m.taking x key) := by
  have taken : m.fetched.executeAwaitKey x = { m with
      registers := m.fetched.registers.set x key
      pad := { m.pad with released := none }
      awaitingKey := false } := by
    simp only [executeAwaitKey, show m.fetched.awaitingKey = m.awaitingKey from rfl,
      show m.fetched.pad = m.pad from rfl, waiting, if_true, released]
    rfl
  rw [stands.step, taken, taking, ← fetched_pc]
  rfl

theorem stalling (stands : m.AtKeyWait x) : m.stalling.AtKeyWait x :=
  { stands with range := { stands.range with pad := stands.range.pad.beginWait } }

end AtKeyWait

structure Waits (m : Machine) (x : Register) (registers : Registers) : Prop where
  stands : m.AtKeyWait x
  waiting : m.awaitingKey = true
  registers : m.registers = registers

namespace Waits

variable {registers : Registers}

theorem perform (waits : m.Waits x registers) (event : Event)
    (unreleased : event = .step → m.pad.released = none) :
    (m.perform event.action).Waits x registers ∧
      (m.perform event.action).pad.released =
        ((event.released? m).map Fin.val).or m.pad.released := by
  have range := waits.stands.range.perform event.action
  cases event with
  | step =>
    have stalls : m.perform .step = m.stalling := by
      rw [Machine.perform, waits.stands.step_stalls fun _ => unreleased rfl, Attempt.left_ok]
    rw [Event.action, stalls]
    exact ⟨⟨waits.stands.stalling, rfl, waits.registers⟩, (unreleased rfl).symm⟩
  | press key => exact ⟨⟨{ waits.stands with range }, waits.waiting, waits.registers⟩, rfl⟩
  | countDown => exact ⟨⟨{ waits.stands with range }, waits.waiting, waits.registers⟩, rfl⟩
  | release key =>
    refine ⟨⟨{ waits.stands with range }, waits.waiting, waits.registers⟩, ?_⟩
    simp only [Event.action, Machine.perform, HexPad.released_release, Event.released?]
    split <;> rfl

theorem undergo (waits : m.Waits x registers) {events : List Event}
    (unanswered : ∀ before later, events = before ++ .step :: later →
      m.pad.released = none ∧ releases m before = []) :
    (m.undergo events).Waits x registers ∧
      (m.undergo events).pad.released =
        ((releases m events).getLast?.map Fin.val).or m.pad.released := by
  -- no step among the events finds a key released, neither one from before nor one of theirs
  induction events generalizing m with
  | nil => exact ⟨waits, rfl⟩
  | cons event events ih =>
    have first : event = .step → m.pad.released = none := by
      rintro rfl
      exact (unanswered [] events rfl).1
    obtain ⟨kept, recorded⟩ := waits.perform event first
    have rest : ∀ before later, events = before ++ .step :: later →
        (m.perform event.action).pad.released = none ∧
          releases (m.perform event.action) before = [] := by
      rintro before later rfl
      obtain ⟨unreleased, none⟩ := unanswered (event :: before) later rfl
      rw [releases, List.append_eq_nil_iff, Option.toList_eq_nil_iff] at none
      rw [recorded, none.1, unreleased]
      exact ⟨rfl, none.2⟩
    obtain ⟨kept, last⟩ := ih kept rest
    refine ⟨kept, ?_⟩
    have latest : (releases m (event :: events)).getLast? =
        (releases (m.perform event.action) events).getLast?.or (event.released? m) := by
      rw [releases, List.getLast?_append]
      cases event.released? m <;> rfl
    rw [latest, Option.map_or, Option.or_assoc, ← recorded]
    exact last

end Waits

/-- From its first step on a machine waits for a key without any other change, until a step follows
the release of a key that was down. That step takes the key released last. -/
theorem keyWait_ends_with_release (reachable : Reachable m) (running : m.fault = none)
    (room : m.registers.pc ≤ 0xFFE) (word : m.wordAt m.registers.pc = 0xF00A + 256 * x)
    (fresh : m.awaitingKey = false) :
    m.step = .ok none m.stalling ∧
      ∀ events, Unanswered m.stalling events →
        (m.stalling.undergo events).registers = m.registers ∧
          (m.stalling.undergo events).step =
            .ok none (match (releases m.stalling events).getLast? with
              | none => (m.stalling.undergo events).stalling
              | some key => (m.stalling.undergo events).taking x key) := by
  have stands : m.AtKeyWait x := ⟨reachable.inRange, running, room, word⟩
  refine ⟨stands.step_stalls fun waiting => ?_, fun events unanswered => ?_⟩
  · rw [fresh] at waiting
    cases waiting
  · obtain ⟨waits, recorded⟩ := Waits.undergo ⟨stands.stalling, rfl, rfl⟩
      fun before later order => ⟨rfl, unanswered before later order⟩
    refine ⟨waits.registers, ?_⟩
    cases latest : (releases m.stalling events).getLast? with
    | none =>
      rw [latest] at recorded
      exact waits.stands.step_stalls fun _ => recorded
    | some key =>
      rw [latest] at recorded
      exact waits.stands.step_takes waits.waiting recorded

theorem releases_of_stroke (m : Machine) (key : Int) :
    releases m [.press key, .release key] = [Key.ofInt key] := by
  have down : (m.pad.press (Key.ofInt key)).isDown (Key.ofInt key) = true := by
    simp only [HexPad.isDown_press, decide_true, Bool.true_or]
  simp only [releases, Event.released?, Event.action, perform, down, if_true, Option.toList_none,
    Option.toList_some, List.nil_append, List.append_nil]

/-- A program that begins by waiting for a key gets the key that is pressed and released. -/
theorem keyWait_ends_with_stroke :
    ∃ waiting : Machine, (withProgram {} (.cycle 0 []) [0xF3, 0x0A]).step = .ok none waiting ∧
      (waiting.undergo [.press 0x17, .release 0x17]).step =
        .ok none ((waiting.undergo [.press 0x17, .release 0x17]).taking 3 7) := by
  have fits : [(0xF3 : UInt8), 0x0A].length ≤ maxRomSize := by decide
  have loaded := withProgram_eq {} (.cycle 0 []) fits
  have start : (withProgram {} (.cycle 0 []) [0xF3, 0x0A]).registers.pc = 0x200 := by
    rw [loaded]
    rfl
  have word : (withProgram {} (.cycle 0 []) [0xF3, 0x0A]).wordAt
      (withProgram {} (.cycle 0 []) [0xF3, 0x0A]).registers.pc = 0xF00A + 256 * (3 : Register) := by
    rw [start]
    exact wordAt_withProgram {} (.cycle 0 []) fits 0 (by decide)
  obtain ⟨stalls, ends⟩ := keyWait_ends_with_release (withProgram_reachable {} (.cycle 0 []) _)
    (by rw [loaded]; rfl) (by rw [start]; decide) word (by rw [loaded]; rfl)
  have unanswered : Unanswered (withProgram {} (.cycle 0 []) [0xF3, 0x0A]).stalling
      [.press 0x17, .release 0x17] := by
    intro before later order
    have member : Event.step ∈ [Event.press 0x17, .release 0x17] := by
      rw [order]
      exact List.mem_append_right _ List.mem_cons_self
    simp only [List.mem_cons, reduceCtorEq, List.not_mem_nil, or_self] at member
  have takes := (ends _ unanswered).2
  rw [releases_of_stroke] at takes
  exact ⟨_, stalls, takes⟩

end Machine

end ChipEight
