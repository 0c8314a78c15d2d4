import ChipEight.Monitor
import ChipEight.Proofs.Frame
import ChipEight.Proofs.Reachable

/-!
Everything that a machine can be asked for from outside, with what it answers. Few requests change
more than instructions do.
-/

namespace ChipEight

namespace Monitor

variable {σ τ : Type} {P : Reply τ → Prop} {r : Option (Reply σ)} {whole : σ → τ}

theorem forall_mem_within (here : ∀ outcome part, P (outcome, whole part)) :
    ∀ reply ∈ within r whole, P reply := by
  intro reply given
  obtain ⟨⟨outcome, part⟩, _, rfl⟩ := Option.map_eq_some_iff.mp given
  exact here outcome part

theorem forall_mem_orElse {first rest : Option (Reply τ)} (here : ∀ reply ∈ first, P reply)
    (there : ∀ reply ∈ rest, P reply) : ∀ reply ∈ (first <|> rest), P reply := by
  cases first with
  | none => exact there
  | some found => exact here

end Monitor

namespace Machine

/-- The parts of a machine that can be switched off and on by themselves. The registers take the
call stack with them. -/
inductive Part where
  | memory
  | registers
  | timers
  | pad

def renew (m : Machine) : Part → Machine
  | .memory => { m with memory := m.memory.reset }
  | .registers => { m with registers := {}, stack := {} }
  | .timers => { m with timers := {} }
  | .pad => { m with pad := {} }

inductive Request where
  | loadFont (data : List Value)
  | loadRom (program : Value)
  | configure (settings : Settings)
  | reset
  | renew (part : Part)
  | fetch
  | execute (i : Instruction)
  | step
  | run (n : Nat)
  | read (address length : Int)
  | write (address : Int) (values : List Int)
  | command (word : String) (args : List Value)

inductive Answer where
  | done
  | fault (fault : Option Fault)
  | word (n : Nat)
  | bytes (bytes : List UInt8)
  | value (v : Value)
  | unknown

def command (word : String) (args : List Value) : Attempt Machine Answer := fun m =>
  match m.obey word args with
  | some (.ok v, after) => .ok (.value v) after
  | some (.error failure, after) => .error failure after
  | none => .ok .unknown m

def serve : Request → Attempt Machine Answer
  | .loadFont data => do
    loadFont data
    return .done
  | .loadRom program => do
    loadRom (← Rom.ofValue program)
    return .done
  | .configure settings => do
    modify (·.configure settings)
    return .done
  | .reset => do
    reset
    return .done
  | .renew part => do
    modify (·.renew part)
    return .done
  | .fetch => return .word (← fetch)
  | .execute i => do
    execute i
    return .done
  | .step => return .fault (← (step : Attempt Machine (Option Fault)))
  | .run n => return .fault (← (run n : Attempt Machine (Option Fault)))
  | .read address length => return .bytes (← (← get).memory.block address length)
  | .write address values => do
    onMemory (Memory.writeValues address values)
    return .done
  | .command word args => command word args

def answer (m : Machine) (request : Request) : Except Failure Answer :=
  (Attempt.reply (serve request m)).1

def comply (m : Machine) (request : Request) : Machine :=
  Attempt.left (serve request m)

def complyAll (m : Machine) (requests : List Request) : Machine :=
  requests.foldl comply m

variable {P : Machine → Prop} {m : Machine}

theorem complyAll_keeps {requests : List Request}
    (kept : ∀ request ∈ requests, ∀ m, P m → P (m.comply request)) (holds : P m) :
    P (m.complyAll requests) := by
  induction requests generalizing m with
  | nil => exact holds
  | cons request requests ih =>
    rw [List.forall_mem_cons] at kept
    exact ih kept.2 (kept.1 m holds)

def Request.plain : Request → Bool
  | .loadRom _ | .configure _ | .reset | .step | .run _ => false
  | _ => true

theorem obey_parts (m : Machine) (word : String) (args : List Value) :
    ∀ reply ∈ m.obey word args, ∃ registers stack timers pad screen,
      reply.2 = { m with registers, stack, timers, pad, screen } := by
  refine Monitor.forall_mem_orElse (Monitor.forall_mem_within ?_) ?_
  · exact fun _ _ => ⟨_, _, _, _, _, rfl⟩
  refine Monitor.forall_mem_orElse (Monitor.forall_mem_within ?_) ?_
  · exact fun _ _ => ⟨_, _, _, _, _, rfl⟩
  refine Monitor.forall_mem_orElse (Monitor.forall_mem_within ?_) ?_
  · exact fun _ _ => ⟨_, _, _, _, _, rfl⟩
  refine Monitor.forall_mem_orElse (Monitor.forall_mem_within ?_) ?_
  · exact fun _ _ => ⟨_, _, _, _, _, rfl⟩
  · exact Monitor.forall_mem_within fun _ _ => ⟨_, _, _, _, _, rfl⟩

namespace Steadfast

theorem command (steadfast : Steadfast P) (word : String) (args : List Value) :
    Attempt.Keeps P (command word args) := by
  intro m holds
  unfold Machine.command
  cases obeyed : m.obey word args with
  | none => exact holds
  | some reply =>
    obtain ⟨registers, stack, timers, pad, screen, changed⟩ := m.obey_parts word args reply obeyed
    have kept : P reply.2 := by
      rw [changed]
      exact steadfast.change registers stack timers screen pad _ _ holds
    rcases reply with ⟨_ | _, after⟩ <;> exact kept

theorem renew (steadfast : Steadfast P) (holds : P m) (part : Part) : P (m.renew part) := by
  cases part with
  | memory => exact steadfast.refill _ (Memory.size_zeroed _) holds
  | registers => exact steadfast.change _ _ _ _ _ _ _ holds
  | timers => exact steadfast.change _ _ _ _ _ _ _ holds
  | pad => exact steadfast.change _ _ _ _ _ _ _ holds

theorem loadFont (steadfast : Steadfast P) (data : List Value) :
    Attempt.Keeps P (loadFont data) :=
  steadfast.onMemory (Memory.Keeps.storeFont · data)

theorem comply (steadfast : Steadfast P) (holds : P m) {request : Request}
    (plain : request.plain) : P (m.comply request) := by
  cases request with
  | loadFont data =>
    exact Attempt.Keeps.bind (steadfast.loadFont data) (fun _ => .pure _) m holds
  | renew part => exact steadfast.renew holds part
  | fetch => exact Attempt.Keeps.bind steadfast.fetch (fun _ => .pure _) m holds
  | execute i => exact Attempt.Keeps.bind (steadfast.execute i) (fun _ => .pure _) m holds
  | read address length => exact Attempt.Keeps.bind (.lift _) (fun _ => .pure _) m holds
  | write address values =>
    exact Attempt.Keeps.bind (steadfast.onMemory (Memory.Keeps.write · address _))
      (fun _ => .pure _) m holds
  | command word args => exact steadfast.command word args m holds
  | loadRom | configure | reset | step | run => cases plain

end Steadfast

def Request.passing : Request → Bool
  | .loadRom _ | .configure _ => false
  | _ => true

structure Lasting (P : Machine → Prop) : Prop extends Steadfast P where
  account : ∀ {m : Machine} fault cycles, P m → P { m with fault, cycles }

namespace Lasting

theorem wiped (lasting : Lasting P) (holds : P m) : P m.wiped :=
  lasting.account none 0 <| lasting.change {} {} {} {} {} false m.random <|
    lasting.refill m.memory.reset (Memory.size_zeroed _) holds

theorem reset (lasting : Lasting P) : Attempt.Keeps P reset := by
  refine .bind (.modify fun _ holds => lasting.wiped holds) fun _ =>
    .bind (lasting.loadFont _) fun _ => ?_
  intro m holds
  rw [Attempt.get_bind]
  cases m.rom with
  | none => exact holds
  | some program => exact lasting.onMemory (Memory.Keeps.write · romStart program) m holds

theorem step (lasting : Lasting P) : Attempt.Keeps P (step : Attempt Machine (Option Fault)) := by
  intro m holds
  have cycled := lasting.cycle m holds
  have stepped := m.stepped
  generalize Machine.step m = result at stepped ⊢
  cases stepped with
  | stopped => exact holds
  | done running outcome =>
    rw [outcome] at cycled
    exact lasting.account _ _ cycled
  | stops running outcome =>
    rw [outcome] at cycled
    exact lasting.account _ _ cycled
  | escapes running outcome =>
    rw [outcome] at cycled
    exact cycled

theorem run (lasting : Lasting P) (n : Nat) :
    Attempt.Keeps P (run n : Attempt Machine (Option Fault)) := by
  induction n with
  | zero => exact fun _ holds => holds
  | succ n ih =>
    intro m holds
    have stepped := lasting.step m holds
    rw [Machine.run]
    cases outcome : m.step with
    | error failure after => rwa [outcome] at stepped
    | ok answer after =>
      rw [outcome] at stepped
      cases answer with
      | none => exact ih after stepped
      | some fault => exact stepped

theorem comply (lasting : Lasting P) (holds : P m) {request : Request}
    (passing : request.passing) : P (m.comply request) := by
  cases request with
  | reset => exact Attempt.Keeps.bind lasting.reset (fun _ => .pure _) m holds
  | step => exact Attempt.Keeps.bind lasting.step (fun _ => .pure _) m holds
  | run n => exact Attempt.Keeps.bind (lasting.run n) (fun _ => .pure _) m holds
  | loadFont | renew | fetch | execute | read | write | command =>
    exact lasting.toSteadfast.comply holds rfl
  | loadRom | configure => cases passing

end Lasting

end Machine

end ChipEight
