import ChipEight.Proofs.Effects
import ChipEight.Proofs.Reachable

/-!
From power-on or a reset on the call stack holds the addresses behind the calls in progress,
whatever the places above them still hold.
-/

namespace ChipEight

namespace Machine

variable {m : Machine} {calls : List Nat}

abbrev upcoming (m : Machine) : Nat :=
  m.wordAt m.registers.pc

/-- The calls in progress after an action, from those in progress before. -/
def callsAfter (m : Machine) (calls : List Nat) : Action → List Nat
  | .step =>
    match m.step with
    | .ok none _ =>
      if m.upcoming / 4096 = 2 then calls ++ [(m.registers.pc + 2) % 4096]
      else if m.upcoming = 0x00EE then calls.dropLast
      else calls
    | _ => calls
  | _ => calls

def callHistory (m : Machine) (calls : List Nat) : List Action → List Nat
  | [] => calls
  | action :: later => callHistory (m.perform action) (m.callsAfter calls action) later

/-- A machine just switched on or reset, and perhaps given a program. -/
inductive Started : Machine → Prop
  | powerOn (settings : Settings) (random : Supply UInt8) : Started (new settings random)
  | reset {m : Machine} (reachable : Reachable m) : Started (m.perform .reset)
  | load {m : Machine} (started : Started m) (program : List UInt8) :
    Started (m.perform (.loadRom program))

/-! ### Steps that call and return -/

structure Ready (m : Machine) : Prop where
  range : m.InRange
  running : m.fault = none
  before : m.registers.pc ≠ lastAddress

theorem ready_of_step (range : m.InRange) {next : Machine} (quiet : m.step = .ok none next) :
    m.Ready := by
  obtain ⟨running, _, _⟩ := step_counts quiet
  refine ⟨range, running, fun last => ?_⟩
  obtain ⟨fault, _, stops⟩ := step_of_stop range running (stop?_of_last last)
  rw [quiet] at stops
  cases stops

namespace Ready

theorem decode {o : Operation} (fits : o.Fits m.upcoming) :
    Instruction.decode m.upcoming = .ok ⟨o, m.upcoming⟩ :=
  Instruction.decode_eq_ok_iff.mpr ⟨(m.wordOf_wordAt _).symm, fits⟩

theorem decode_call (call : m.upcoming / 4096 = 2) :
    Instruction.decode m.upcoming = .ok ⟨.call, m.upcoming⟩ :=
  decode ((Operation.fits_call (m.wordAt_lt _)).mpr call)

theorem decode_return (ret : m.upcoming = 0x00EE) :
    Instruction.decode m.upcoming = .ok ⟨.ret, m.upcoming⟩ :=
  decode ((Operation.fits_ret (m.wordAt_lt _)).mpr ret)

theorem step_done (ready : m.Ready) {i : Instruction} {done : Machine}
    (decoded : Instruction.decode m.upcoming = .ok i) (executed : execute i m.fetched = .ok ⟨⟩ done) :
    m.step = .ok none { done with cycles := done.cycles + 1 } := by
  have cycled := (cycle_of_decode ready.range ready.before decoded).trans executed
  simp only [step, ready.running, cycled]

theorem step_call (ready : m.Ready) (call : m.upcoming / 4096 = 2)
    (room : m.stack.depth < stackDepth) :
    ∃ next, m.step = .ok none next ∧
      next.stack.addresses = m.stack.addresses ++ [(m.registers.pc + 2) % 4096] ∧
      next.registers.pc = m.upcoming % 4096 := by
  have address : m.fetched.registers.pc < memorySize := ready.range.fetched.registers.pc
  have short : m.fetched.registers.pc ≤ 0xFFFF := Nat.le_trans (Nat.le_of_lt address) (by decide)
  have target : Instruction.nnn ⟨.call, m.upcoming⟩ = m.upcoming % 4096 := Instruction.nnn_eq _
  have executed : execute ⟨.call, m.upcoming⟩ m.fetched = .ok ⟨⟩
      ({ m.fetched with stack := m.stack.grow m.fetched.registers.pc }.goto
        (m.upcoming % 4096 : Nat)) := by
    rw [← target]
    exact executeCall_of_room (m := m.fetched) room short
  refine ⟨_, ready.step_done (decode_call call) executed, ?_, ?_⟩
  · rw [← memorySize, ← m.fetched_pc]
    exact CallStack.addresses_grow room short
  · exact wrapAddress_natCast (Nat.mod_lt _ (by decide))

theorem step_return (ready : m.Ready) (ret : m.upcoming = 0x00EE) (calls : 0 < m.stack.depth) :
    ∃ address next, m.step = .ok none next ∧
      m.stack.addresses = next.stack.addresses ++ [address] ∧ next.registers.pc = address := by
  obtain ⟨address, listed, executed⟩ :=
    executeReturn_of_calls (m := m.fetched) calls ready.range.stack.depth
  have valid : address < memorySize := by
    refine ready.range.stack.addresses address ?_
    rw [← m.fetched_stack, listed]
    exact List.mem_append_right _ List.mem_cons_self
  refine ⟨address, _, ready.step_done (decode_return ret) executed, listed, ?_⟩
  exact wrapAddress_natCast valid

theorem step_stops (ready : m.Ready) {i : Instruction} {failure : Failure}
    (decoded : Instruction.decode m.upcoming = .ok i)
    (refused : m.fetched.refusal? i = some failure) :
    ∃ fault next, m.step = .ok (some fault) next ∧ failure.fault? = some fault := by
  have stops : m.stop? = some failure := (stop?_of_decode ready.before decoded).trans refused
  obtain ⟨fault, named, stopped⟩ := step_of_stop ready.range ready.running stops
  exact ⟨fault, _, stopped, named⟩

theorem step_call_full (ready : m.Ready) (call : m.upcoming / 4096 = 2)
    (full : m.stack.depth = stackDepth) :
    ∃ fault next, m.step = .ok (some fault) next ∧ fault.kind = "StackOverflow" := by
  have refused : m.fetched.refusal? ⟨.call, m.upcoming⟩ =
      some (.stackOverflow (.whole m.fetched.registers.pc)) := if_pos full
  obtain ⟨fault, next, stopped, named⟩ := ready.step_stops (decode_call call) refused
  cases named
  exact ⟨_, next, stopped, rfl⟩

theorem step_return_empty (ready : m.Ready) (ret : m.upcoming = 0x00EE)
    (empty : m.stack.depth = 0) :
    ∃ fault next, m.step = .ok (some fault) next ∧ fault.kind = "StackUnderflow" := by
  have refused : m.fetched.refusal? ⟨.ret, m.upcoming⟩ = some .stackUnderflow := if_pos empty
  obtain ⟨fault, next, stopped, named⟩ := ready.step_stops (decode_return ret) refused
  cases named
  exact ⟨_, next, stopped, rfl⟩

end Ready

theorem stack_of_fault (range : m.InRange) {fault : Fault} {next : Machine}
    (stopped : m.step = .ok (some fault) next) : next.stack = m.stack := by
  cases status : m.fault with
  | some _ =>
    rw [step_of_fault status] at stopped
    cases stopped
    rfl
  | none =>
    cases outcome : m.stop? with
    | none =>
      obtain ⟨_, _, _, _, goes, _⟩ := step_of_go range status outcome
      rw [stopped] at goes
      cases goes
    | some failure =>
      obtain ⟨_, _, stops⟩ := step_of_stop range status outcome
      rw [stopped] at stops
      cases stops
      unfold stalled
      split <;> rfl

theorem callsAfter_of_fault (calls : List Nat) {fault : Fault} {next : Machine}
    (stopped : m.step = .ok (some fault) next) : m.callsAfter calls .step = calls := by
  simp only [callsAfter, stopped]

theorem callsAfter_of_call (calls : List Nat) {next : Machine} (stepped : m.step = .ok none next)
    (call : m.upcoming / 4096 = 2) :
    m.callsAfter calls .step = calls ++ [(m.registers.pc + 2) % 4096] := by
  simp only [callsAfter, stepped]
  rw [if_pos call]

theorem callsAfter_of_return (calls : List Nat) {next : Machine} (stepped : m.step = .ok none next)
    (ret : m.upcoming = 0x00EE) : m.callsAfter calls .step = calls.dropLast := by
  have noCall : m.upcoming / 4096 ≠ 2 := ret ▸ by decide
  simp only [callsAfter, stepped]
  rw [if_neg noCall, if_pos ret]

theorem callsAfter_of_other (calls : List Nat) {next : Machine} (stepped : m.step = .ok none next)
    (noCall : m.upcoming / 4096 ≠ 2) (noReturn : m.upcoming ≠ 0x00EE) :
    m.callsAfter calls .step = calls := by
  simp only [callsAfter, stepped]
  rw [if_neg noCall, if_neg noReturn]

theorem stack_of_step (range : m.InRange) {next : Machine} (quiet : m.step = .ok none next)
    (noCall : m.upcoming / 4096 ≠ 2) (noReturn : m.upcoming ≠ 0x00EE) : next.stack = m.stack := by
  have ready := ready_of_step range quiet
  cases outcome : m.stop? with
  | some failure =>
    obtain ⟨_, _, stops⟩ := step_of_stop range ready.running outcome
    rw [quiet] at stops
    cases stops
  | none =>
    obtain ⟨i, done, decoded, executed, stepped, _⟩ := step_of_go range ready.running outcome
    rw [quiet] at stepped
    cases stepped
    have effect := Effect.execute (m := m.fetched) i range.stack.depth
    rw [executed] at effect
    have small := m.wordAt_lt m.registers.pc
    cases effect with
    | done confined =>
      refine confined.stack (fun call => noCall ?_) fun ret => noReturn ?_
      · rwa [Instruction.operation_eq_iff decoded, Operation.fits_call small] at call
      · rwa [Instruction.operation_eq_iff decoded, Operation.fits_ret small] at ret

theorem call_of_step (range : m.InRange) {next : Machine} (quiet : m.step = .ok none next)
    (call : m.upcoming / 4096 = 2) :
    next.stack.addresses = m.stack.addresses ++ [(m.registers.pc + 2) % 4096] ∧
      next.registers.pc = m.upcoming % 4096 := by
  have ready := ready_of_step range quiet
  rcases Nat.lt_or_eq_of_le range.stack.depth with room | full
  · obtain ⟨_, stepped, listed, target⟩ := ready.step_call call room
    rw [quiet] at stepped
    cases stepped
    exact ⟨listed, target⟩
  · obtain ⟨_, _, stopped, _⟩ := ready.step_call_full call full
    rw [quiet] at stopped
    cases stopped

theorem return_of_step (range : m.InRange) {next : Machine} (quiet : m.step = .ok none next)
    (ret : m.upcoming = 0x00EE) :
    m.stack.addresses = next.stack.addresses ++ [next.registers.pc] := by
  have ready := ready_of_step range quiet
  rcases Nat.eq_zero_or_pos m.stack.depth with empty | calls
  · obtain ⟨_, _, stopped, _⟩ := ready.step_return_empty ret empty
    rw [quiet] at stopped
    cases stopped
  · obtain ⟨_, _, stepped, listed, target⟩ := ready.step_return ret calls
    rw [quiet] at stepped
    cases stepped
    rw [target, listed]

theorem Ready.callsAfter_call (ready : m.Ready) (calls : List Nat) (call : m.upcoming / 4096 = 2)
    (room : m.stack.depth < stackDepth) :
    m.callsAfter calls .step = calls ++ [(m.registers.pc + 2) % 4096] := by
  obtain ⟨_, called, _⟩ := ready.step_call call room
  exact callsAfter_of_call calls called call

theorem Ready.callHistory_press (ready : m.Ready) (calls : List Nat) (key : Int)
    (call : m.upcoming / 4096 = 2) (room : m.stack.depth < stackDepth) :
    m.callHistory calls [.press key, .step] = calls ++ [(m.registers.pc + 2) % 4096] :=
  callsAfter_call (m := m.perform (.press key)) ⟨ready.range.perform _, ready.running, ready.before⟩
    calls call room

/-! ### The stack and the history -/

structure Holds (m : Machine) (calls : List Nat) : Prop where
  range : m.InRange
  addresses : m.stack.addresses = calls

namespace Holds

theorem depth (holds : m.Holds calls) : m.stack.depth = calls.length := by
  rw [← holds.addresses, CallStack.addresses_length holds.range.stack.depth]

theorem step (holds : m.Holds calls) : (m.perform .step).Holds (m.callsAfter calls .step) := by
  refine ⟨holds.range.perform .step, ?_⟩
  obtain ⟨answer, next, stepped, _⟩ := holds.range.step
  rw [Machine.perform, stepped, Attempt.left_ok]
  cases answer with
  | some fault =>
    rw [stack_of_fault holds.range stepped, callsAfter_of_fault calls stepped, holds.addresses]
  | none =>
    by_cases call : m.upcoming / 4096 = 2
    · rw [(call_of_step holds.range stepped call).1, callsAfter_of_call calls stepped call,
        holds.addresses]
    · by_cases ret : m.upcoming = 0x00EE
      · rw [callsAfter_of_return calls stepped ret, ← holds.addresses,
          return_of_step holds.range stepped ret, List.dropLast_concat]
      · rw [stack_of_step holds.range stepped call ret, callsAfter_of_other calls stepped call ret,
          holds.addresses]

theorem perform (holds : m.Holds calls) {action : Action} (playing : action.playing) :
    (m.perform action).Holds (m.callsAfter calls action) := by
  have range := holds.range.perform action
  cases action with
  | step => exact holds.step
  | press | release | setDelay | setSound | countDown => exact ⟨range, holds.addresses⟩
  | loadFont | loadRom | configure | reset | run | execute => cases playing

theorem performAll (holds : m.Holds calls) {actions : List Action}
    (playing : ∀ action ∈ actions, action.playing) :
    (m.performAll actions).Holds (m.callHistory calls actions) := by
  induction actions generalizing m calls with
  | nil => exact holds
  | cons action later ih =>
    rw [List.forall_mem_cons] at playing
    exact ih (holds.perform playing.1) playing.2

end Holds

/-! ### Where runs start -/

theorem loadFont_stack (stack : CallStack) (data : List Value) :
    Attempt.Keeps (fun m => m.stack = stack) (loadFont data) :=
  .frame _ fun _ _ same => same

theorem storeRom_stack (stack : CallStack) (program : List UInt8) :
    Attempt.Keeps (fun m => m.stack = stack) (onMemory (Memory.storeRom program)) :=
  .frame _ fun _ _ same => same

theorem reset_stack (m : Machine) : (m.perform .reset).stack = {} := by
  simp only [Machine.perform]
  rw [reset, Attempt.bind_of_ok (Attempt.modify_apply wiped m)]
  refine Attempt.Keeps.bind (loadFont_stack {} _) (fun _ => ?_) m.wiped rfl
  intro refilled empty
  rw [Attempt.get_bind]
  cases refilled.rom with
  | none => exact empty
  | some program => exact storeRom_stack {} program refilled empty

theorem Started.holds (started : Started m) : m.Holds [] := by
  induction started with
  | powerOn settings random => exact ⟨.new settings random, CallStack.addresses_eq_nil rfl⟩
  | @reset before reachable =>
    refine ⟨reachable.inRange.perform .reset, ?_⟩
    rw [reset_stack before]
    exact CallStack.addresses_eq_nil rfl
  | @load before _ program ih =>
    refine ⟨ih.range.perform (.loadRom program), ?_⟩
    have kept : Attempt.Keeps (fun m => m.stack = before.stack) (loadRom program) :=
      .bind (storeRom_stack before.stack program) fun _ => .modify fun _ same => same
    exact (congrArg CallStack.addresses (kept before rfl)).trans ih.addresses

/-! ### What the history tells -/

/-- What the call stack tells at one moment of a run, and what the next step does to it. -/
structure Follows (m : Machine) (calls : List Nat) : Prop where
  depth : m.stack.depth = calls.length
  bounded : calls.length ≤ 16
  addresses : m.stack.addresses = calls
  peek : m.stack.peek = calls.getLast?
  called : m.upcoming / 4096 = 2 → ∀ next, m.step = .ok none next →
    next.registers.pc = m.upcoming % 4096
  returned : m.upcoming = 0x00EE → ∀ next, m.step = .ok none next →
    calls.getLast? = some next.registers.pc
  room : m.fault = none → m.registers.pc ≠ 0xFFF → m.upcoming / 4096 = 2 → calls.length < 16 →
    ∃ next, m.step = .ok none next
  pending : m.fault = none → m.registers.pc ≠ 0xFFF → m.upcoming = 0x00EE → calls ≠ [] →
    ∃ next, m.step = .ok none next
  overflow : m.fault = none → m.registers.pc ≠ 0xFFF → m.upcoming / 4096 = 2 →
    calls.length = 16 → ∃ fault next, m.step = .ok (some fault) next ∧
      fault.kind = "StackOverflow" ∧ next.stack = m.stack ∧ m.callsAfter calls .step = calls
  underflow : m.fault = none → m.registers.pc ≠ 0xFFF → m.upcoming = 0x00EE →
    calls = [] → ∃ fault next, m.step = .ok (some fault) next ∧
      fault.kind = "StackUnderflow" ∧ next.stack = m.stack ∧ m.callsAfter calls .step = calls

theorem Holds.follows (holds : m.Holds calls) : m.Follows calls where
  depth := holds.depth
  bounded := holds.depth ▸ holds.range.stack.depth
  addresses := holds.addresses
  peek := holds.addresses ▸ CallStack.peek_eq_getLast? holds.range.stack.depth
  called call _ quiet := (call_of_step holds.range quiet call).2
  returned ret _ quiet := by
    rw [← holds.addresses, return_of_step holds.range quiet ret, List.getLast?_concat]
  room running before call room := by
    obtain ⟨next, stepped, _⟩ :=
      Ready.step_call ⟨holds.range, running, before⟩ call (holds.depth ▸ room)
    exact ⟨next, stepped⟩
  pending running before ret some := by
    have depth : 0 < m.stack.depth := holds.depth ▸ List.length_pos_of_ne_nil some
    obtain ⟨_, next, stepped, _⟩ := Ready.step_return ⟨holds.range, running, before⟩ ret depth
    exact ⟨next, stepped⟩
  overflow running before call full := by
    obtain ⟨fault, next, stopped, kind⟩ :=
      Ready.step_call_full ⟨holds.range, running, before⟩ call (holds.depth.trans full)
    exact ⟨fault, next, stopped, kind, stack_of_fault holds.range stopped,
      callsAfter_of_fault calls stopped⟩
  underflow running before ret empty := by
    have depth : m.stack.depth = 0 := holds.depth.trans (empty ▸ rfl)
    obtain ⟨fault, next, stopped, kind⟩ :=
      Ready.step_return_empty ⟨holds.range, running, before⟩ ret depth
    exact ⟨fault, next, stopped, kind, stack_of_fault holds.range stopped,
      callsAfter_of_fault calls stopped⟩

/-- From power-on or a reset on, whatever program runs and whatever keys and timers do meanwhile, the
call stack holds the calls in progress. -/
theorem callStack_follows_history {start : Machine} (started : Started start)
    {actions : List Action} (playing : ∀ action ∈ actions, action.playing) :
    (start.performAll actions).Follows (start.callHistory [] actions) :=
  (started.holds.performAll playing).follows

/-- A program that calls its own first instruction, after a key is pressed. -/
theorem callStack_follows_history_of_call :
    (withProgram {} (.cycle 0 []) [0x22, 0x00]).callHistory [] [.press 3, .step] = [0x202] ∧
      ((withProgram {} (.cycle 0 []) [0x22, 0x00]).performAll [.press 3, .step]).Follows
        [0x202] := by
  have fits : [(0x22 : UInt8), 0x00].length ≤ maxRomSize := by decide
  have loaded := withProgram_eq {} (.cycle 0 []) fits
  have started : Started (withProgram {} (.cycle 0 []) [0x22, 0x00]) := .load (.powerOn {} _) _
  have pc : (withProgram {} (.cycle 0 []) [0x22, 0x00]).registers.pc = 0x200 := by
    rw [loaded]
    rfl
  have word : (withProgram {} (.cycle 0 []) [0x22, 0x00]).upcoming = 0x2200 := by
    rw [upcoming, pc]
    exact wordAt_withProgram {} (.cycle 0 []) fits 0 (by decide)
  have ready : (withProgram {} (.cycle 0 []) [0x22, 0x00]).Ready :=
    ⟨started.holds.range, by rw [loaded]; rfl, pc.trans_ne (by decide)⟩
  have history := ready.callHistory_press [] 3 (by rw [word]) (by rw [loaded]; decide)
  rw [pc] at history
  have playing : ∀ action ∈ [Action.press 3, .step], action.playing := by decide
  have follows := callStack_follows_history started playing
  rw [history] at follows
  exact ⟨history, follows⟩

end Machine

end ChipEight
