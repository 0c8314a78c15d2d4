import ChipEight.Proofs.Reachable
import ChipEight.Proofs.Twins

/-!
Two machines that differ in the implementation alone take the same course as long as no instruction
is carried out in which that shows.
-/

namespace ChipEight

open Attempt (Matched)

structure Implementation.SameHabits (a b : Implementation) : Prop where
  shift : a.shiftUsesVy = b.shiftUsesVy
  jump : a.jumpUsesVx = b.jumpUsesVx
  overflow : a.indexOverflowSetsVf = b.indexOverflowSetsVf

theorem Implementation.superChip_chip48 : SameHabits superChip chip48 := ⟨rfl, rfl, rfl⟩

namespace Machine

def Action.running : Action → Bool
  | .run _ => true
  | action => action.playing

def answer? (m : Machine) : Action → Option (Except Failure (Option Fault))
  | .step => some (Attempt.reply m.step).1
  | .run n => some (Attempt.reply (m.run n)).1
  | _ => none

def answers (m : Machine) : List Action → List (Except Failure (Option Fault))
  | [] => []
  | action :: later => (m.answer? action).toList ++ (m.perform action).answers later

inductive Executes (m : Machine) : Action → Machine → Instruction → Prop
  | step {i : Instruction} (next : m.executing? = some i) : Executes m .step m i
  | run {n k : Nat} {reached : Machine} {i : Instruction} (early : k < n)
    (ran : m.run k = .ok none reached) (next : reached.executing? = some i) :
    Executes m (.run n) reached i

/-- What the instruction does on this machine is the same with and without each habit. -/
def Indifferent (m : Machine) (i : Instruction) : Prop :=
  match i.operation with
  | .shiftRight | .shiftLeft => m.registers.get i.x = m.registers.get i.y
  | .jumpPlus => m.registers.get i.x = m.registers.get ⟨0, registerCount_pos⟩
  | .addIndex =>
    m.registers.get flagRegister = if 0xFFF < m.registers.index + m.registers.get i.x then 1 else 0
  | _ => True

/-- No instruction that is carried out during the actions shows a habit. -/
def ShowsNoHabit (m : Machine) (actions : List Action) : Prop :=
  ∀ before action later, actions = before ++ action :: later → ∀ reached i,
    (m.performAll before).Executes action reached i → reached.Indifferent i

def like (m : Machine) (implementation : Implementation) : Machine :=
  { m with settings := { m.settings with implementation } }

/-- The machines are like `a` and like `b`, and differ in nothing else. -/
inductive Variant (a b : Implementation) (m : Machine) : Machine → Prop
  | intro (own : m.settings.implementation = a) : Variant a b m (m.like b)

variable {a b : Implementation} {m n : Machine}

theorem variant_like (m : Machine) (a b : Implementation) : Variant a b (m.like a) (m.like b) :=
  .intro rfl

theorem variant_twinned : Twinned (Variant a b) where
  same := by
    rintro m _ ⟨own⟩
    exact ⟨_, _, _, _, rfl⟩
  change := by
    rintro m _ memory registers stack screen rom fault awaitingKey cycles ⟨own⟩
    exact .intro own

theorem get_either {r : Registers} {x y : Register} (same : r.get x = r.get y) (p q : Bool) :
    r.get (if p then x else y) = r.get (if q then x else y) := by
  have first (c : Bool) : r.get (if c then x else y) = r.get x := by
    cases c with
    | false => exact same.symm
    | true => rfl
  rw [first p, first q]

theorem setFlag_of_get {r : Registers} {flag : Bool}
    (same : r.get flagRegister = if flag then 1 else 0) : r.setFlag flag = r := by
  have kept : wrapByte (if flag then 1 else 0) = r.v[flagRegister] := by
    refine .trans ?_ same.symm
    cases flag <;> rfl
  have refilled : r.v.set flagRegister r.v[flagRegister] = r.v := Vector.set_getElem_self _
  rw [Registers.setFlag, Registers.set, kept, refilled]

theorem executeAddIndex_like {x : Register} (b : Implementation)
    (same : m.registers.get flagRegister =
      if 0xFFF < m.registers.index + m.registers.get x then 1 else 0) :
    (m.executeAddIndex x).registers = ((m.like b).executeAddIndex x).registers := by
  have unset (sum : Int) :
      (m.registers.setIndex sum).setFlag (memorySize ≤ m.registers.index + m.registers.get x) =
        m.registers.setIndex sum := by
    refine setFlag_of_get (same.trans ?_)
    simp only [decide_eq_true_eq]
    rfl
  unfold like
  simp only [executeAddIndex, unset, ite_self]

/-- Variants do the same where they have the same habits, and where no habit shows. -/
theorem Variant.concur (variant : Variant a b m n) {i : Instruction}
    (quiet : a.SameHabits b ∨ m.Indifferent i) : Concur (Variant a b) m n i := by
  obtain ⟨rfl⟩ := variant
  unfold Indifferent at quiet
  unfold Concur like
  -- four operations ask for a habit, the others are not touched by the implementation
  cases op : i.operation with
  | shiftRight | shiftLeft =>
    simp only [op, shiftOperand] at quiet ⊢
    rcases quiet with habits | same
    · rw [habits.shift]
    · exact get_either same.symm _ _
  | jumpPlus =>
    simp only [op, jumpRegister] at quiet ⊢
    rcases quiet with habits | same
    · rw [habits.jump]
    · exact get_either same _ _
  | addIndex =>
    simp only [op] at quiet ⊢
    rcases quiet with habits | same
    · simp only [executeAddIndex, habits.overflow]
    · exact executeAddIndex_like b same
  | awaitKey =>
    simp only [executeAwaitKey]
    cases (if m.awaitingKey then m.pad else m.pad.beginWait).released with
    | none => exact .intro rfl
    | some key => exact .intro rfl
  | random => exact ⟨rfl, .intro rfl⟩
  | setDelay | setSound => exact .intro rfl
  | _ => first | rfl | trivial

structure SameCourse (a b : Implementation) (m n : Machine) (actions : List Action) : Prop where
  answers : m.answers actions = n.answers actions
  states : ∀ before, before <+: actions → Variant a b (m.performAll before) (n.performAll before)

theorem Variant.step (variant : Variant a b m n)
    (quiet : ∀ i, m.executing? = some i → a.SameHabits b ∨ m.Indifferent i) :
    Matched (Variant a b) m.step n.step := by
  refine variant_twinned.step variant fun i next => ?_
  have fetched : Variant a b m.fetched n.fetched := by
    obtain ⟨own⟩ := variant
    exact .intro own
  exact fetched.concur (quiet i next)

theorem Variant.perform (variant : Variant a b m n) {action : Action} (running : action.running)
    (quiet : ∀ reached i, m.Executes action reached i → a.SameHabits b ∨ reached.Indifferent i) :
    Variant a b (m.perform action) (n.perform action) ∧ m.answer? action = n.answer? action := by
  cases action with
  | step =>
    have stepped := variant.step fun i next => quiet m i (.step next)
    exact ⟨stepped.left, congrArg some stepped.reply⟩
  | run count =>
    have ran : Matched (Variant a b) (m.run count) (n.run count) :=
      run_matched variant fun k early reached _ ran related =>
        related.step fun i next => quiet reached i (.run early ran next)
    exact ⟨ran.left, congrArg some ran.reply⟩
  | press | release | setDelay | setSound | countDown =>
    obtain ⟨own⟩ := variant
    exact ⟨.intro own, rfl⟩
  | loadFont | loadRom | configure | reset | execute => cases running

theorem showsNoHabit_nil (m : Machine) : m.ShowsNoHabit [] := by
  intro before action later order
  cases before <;> cases order

theorem showsNoHabit_cons {action : Action} {later : List Action} :
    m.ShowsNoHabit (action :: later) ↔
      (∀ reached i, m.Executes action reached i → reached.Indifferent i) ∧
        (m.perform action).ShowsNoHabit later := by
  constructor
  · intro quiet
    exact ⟨quiet [] action later rfl,
      fun before next rest order => quiet (action :: before) next rest (congrArg _ order)⟩
  · rintro ⟨first, others⟩ before next rest order
    cases before with
    | nil =>
      cases order
      exact first
    | cons _ before =>
      cases order
      exact others before next rest rfl

theorem Variant.course (variant : Variant a b m n) {actions : List Action}
    (running : ∀ action ∈ actions, action.running)
    (quiet : a.SameHabits b ∨ m.ShowsNoHabit actions) : SameCourse a b m n actions := by
  induction actions generalizing m n with
  | nil =>
    refine ⟨rfl, fun before early => ?_⟩
    rw [List.prefix_nil.mp early]
    exact variant
  | cons action later ih =>
    rw [List.forall_mem_cons] at running
    have quiets := quiet.imp_right showsNoHabit_cons.mp
    obtain ⟨performed, answered⟩ := variant.perform running.1 fun reached i executes =>
      quiets.imp_right fun shows => shows.1 reached i executes
    have course := ih performed running.2 (quiets.imp_right And.right)
    refine ⟨?_, fun before early => ?_⟩
    · rw [Machine.answers, Machine.answers, answered, course.answers]
    · rcases List.prefix_cons_iff.mp early with rfl | ⟨between, rfl, shorter⟩
      · exact variant
      · exact course.states between shorter

/-- A machine takes the same course under `SUPER-CHIP` and `CHIP48`, and also under `COSMAC VIP` as
long as nothing that is carried out there shows a habit. -/
theorem implementation_shows_in_habits {actions : List Action}
    (running : ∀ action ∈ actions, action.running) :
    (Variant .superChip .chip48 m n → SameCourse .superChip .chip48 m n actions) ∧
    ∀ other, Variant .cosmacVip other m n → m.ShowsNoHabit actions →
      SameCourse .cosmacVip other m n actions :=
  ⟨fun variant => variant.course running (.inl Implementation.superChip_chip48),
    fun _ variant quiet => variant.course running (.inr quiet)⟩

/-- A shift of one register into another shows no habit as long as both are zero. -/
theorem implementation_shows_in_habits_not_in_shift_of_zero :
    let machine := withProgram {} (.cycle 0 []) [0x81, 0x26]
    SameCourse .superChip .chip48 (machine.like .superChip) (machine.like .chip48)
        [.press 3, .run 9] ∧
      SameCourse .cosmacVip .chip48 machine (machine.like .chip48) [.step, .press 3] := by
  intro machine
  have fits : [(0x81 : UInt8), 0x26].length ≤ maxRomSize := by decide
  have loaded : machine = _ := withProgram_eq {} (.cycle 0 []) fits
  have start : machine.registers = {} := by
    rw [loaded]
    rfl
  have word : machine.wordAt machine.registers.pc = 0x8126 := by
    rw [start]
    exact wordAt_withProgram {} (.cycle 0 []) fits 0 (by decide)
  have shift : machine.ShowsNoHabit [.step, .press 3] := by
    refine showsNoHabit_cons.mpr ⟨?_, showsNoHabit_cons.mpr ⟨?_, showsNoHabit_nil _⟩⟩
    · rintro _ i ⟨next⟩
      have decoded := decode_of_executing? next
      rw [word] at decoded
      cases decoded
      simp only [Indifferent, start]
      rfl
    · rintro _ _ ⟨⟩
  have own : machine.settings.implementation = .cosmacVip := by
    rw [loaded]
    rfl
  exact ⟨(implementation_shows_in_habits (by decide)).1 (variant_like machine _ _),
    (implementation_shows_in_habits (by decide)).2 .chip48 (.intro own) shift⟩

end Machine

end ChipEight
