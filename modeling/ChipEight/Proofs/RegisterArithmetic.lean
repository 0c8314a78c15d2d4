import ChipEight.Proofs.CallHistory

/-!
What copying, combining, adding, subtracting and shifting leave in the registers, whichever
registers a word names. The flag is written last.
-/

namespace ChipEight

section

variable {a b : Nat}

theorem wrapByte_add_carry (ha : a ≤ 255) (hb : b ≤ 255) :
    wrapByte (a + b) + 256 * (if 255 < a + b then 1 else 0) = a + b := by
  unfold wrapByte
  split <;> omega

theorem wrapByte_sub_borrow (ha : a ≤ 255) (hb : b ≤ 255) :
    (wrapByte (a - b) : Int) = a - b + 256 * (1 - (if b ≤ a then 1 else 0 : Nat)) := by
  unfold wrapByte
  split <;> omega

theorem wrapByte_half (ha : a ≤ 255) : 2 * wrapByte (a / 2) + a % 2 = a := by
  unfold wrapByte
  omega

theorem wrapByte_double (a : Nat) : wrapByte (a * 2) + 256 * (a / 128) = 2 * a := by
  unfold wrapByte
  omega

theorem flag_decide (p : Prop) [Decidable p] :
    (if decide p = true then 1 else 0) = if p then 1 else 0 := by
  simp only [decide_eq_true_eq]

theorem flag_lowBit (a : Nat) : (if decide (a % 2 = 1) = true then 1 else 0) = a % 2 := by
  rw [flag_decide]
  split <;> omega

theorem flag_highBit (ha : a ≤ 255) :
    (if decide (a / 128 % 2 = 1) = true then 1 else 0) = a / 128 := by
  rw [flag_lowBit]
  omega

end

namespace Registers

variable {x : Register} {n : Int} {value flag : Nat}

structure Assigned (r : Registers) (x : Register) (value : Nat) (after : Registers) : Prop where
  result : after.get x = value
  others : ∀ k, k ≠ x → after.get k = r.get k

/-- One register gets a result and the flag register a flag, which the identity of the two takes in
this order. The other registers keep their values. -/
structure Flagged (r : Registers) (x : Register) (flag : Nat) (identity : Nat → Nat → Prop)
    (after : Registers) : Prop where
  flag : after.get flagRegister = flag
  result : x ≠ flagRegister → identity (after.get x) (after.get flagRegister)
  others : ∀ k, k ≠ x → k ≠ flagRegister → after.get k = r.get k

theorem assigned_set (r : Registers) (same : wrapByte n = value) :
    r.Assigned x value (r.set x n) := by
  refine ⟨?_, fun k other => get_set_of_ne other n⟩
  rw [get_set, if_pos rfl, same]

theorem flagged_setFlag (r : Registers) {raised : Bool} {identity : Nat → Nat → Prop}
    (told : (if raised then 1 else 0) = flag) (holds : identity (wrapByte n) flag) :
    r.Flagged x flag identity ((r.set x n).setFlag raised) := by
  have carry : ((r.set x n).setFlag raised).get flagRegister = flag :=
    (get_setFlag _ _).trans told
  refine ⟨carry, fun apart => ?_, fun k result spared => ?_⟩
  · rw [carry, setFlag, get_set_of_ne apart, get_set, if_pos rfl]
    exact holds
  · rw [setFlag, get_set_of_ne spared, get_set_of_ne result]

end Registers

namespace Machine

variable {m : Machine} {x y : Register} {o : Operation}

def registerWord (x y : Register) (last : Nat) : Nat :=
  0x8000 + 256 * x + 16 * y + last

def byteWord (x : Register) (kk : Nat) : Nat :=
  0x7000 + 256 * x + kk

/-- A word can be carried out and leaves the registers in some way, be it handed to the machine or
found at the program counter. -/
structure Yields (m : Machine) (word : Nat) (way : Registers → Prop) : Prop where
  executed : ∃ i after, Instruction.decode word = .ok i ∧ execute i m = .ok ⟨⟩ after ∧
    way after.registers
  stepped : m.fault = none → m.registers.pc ≠ 0xFFF → m.upcoming = word →
    ∃ next, m.step = .ok none next ∧ way next.registers

theorem Yields.of_execute {word : Nat} {i : Instruction} {way : Registers → Prop}
    (range : m.InRange) (decoded : Instruction.decode word = .ok i)
    (executes : ∀ k : Machine, (∀ z, k.registers.get z = m.registers.get z) →
      k.settings = m.settings → ∃ after, execute i k = .ok ⟨⟩ after ∧ way after.registers) :
    m.Yields word way := by
  refine ⟨?_, fun running before stands => ?_⟩
  · obtain ⟨after, executed, left⟩ := executes m (fun _ => rfl) rfl
    exact ⟨i, after, decoded, executed, left⟩
  · obtain ⟨after, executed, left⟩ := executes m.fetched (fun _ => rfl) rfl
    have ready : m.Ready := ⟨range, running, before⟩
    rw [← stands] at decoded
    exact ⟨_, ready.step_done decoded executed, left⟩

theorem x_byteWord {kk : Nat} (small : kk ≤ 255) : Instruction.x ⟨o, byteWord x kk⟩ = x :=
  Instruction.x_of_word (d := 7) rfl small

theorem kk_byteWord {kk : Nat} (small : kk ≤ 255) : Instruction.kk ⟨o, byteWord x kk⟩ = kk := by
  rw [Instruction.kk_eq]
  show byteWord x kk % 256 = kk
  unfold byteWord
  omega

theorem decode_byteWord {kk : Nat} (small : kk ≤ 255) :
    Instruction.decode (byteWord x kk) = .ok ⟨.addByte, byteWord x kk⟩ := by
  have high : x.val < 16 := x.isLt
  have short : byteWord x kk < 0x10000 := by
    unfold byteWord
    omega
  refine Instruction.decode_of_fits short
    ((Operation.fits_iff_first (o := .addByte) rfl (by trivial) short).mpr ?_)
  show byteWord x kk / 4096 = 7
  unfold byteWord
  omega

theorem yields_addByte (range : m.InRange) {kk : Nat} (small : kk ≤ 255) :
    m.Yields (byteWord x kk) (m.registers.Assigned x ((m.registers.get x + kk) % 256)) := by
  refine .of_execute range (decode_byteWord small) fun k alike _ => ⟨_, rfl, ?_⟩
  rw [x_byteWord small, kk_byteWord small, alike]
  have sum : wrapByte (m.registers.get x + kk) = (m.registers.get x + kk) % 256 := by
    unfold wrapByte
    omega
  obtain ⟨result, others⟩ := k.registers.assigned_set (x := x) sum
  exact ⟨result, fun z other => (others z other).trans (alike z)⟩

section

variable {last : Fin 16}

theorem x_registerWord (x y : Register) : Instruction.x ⟨o, registerWord x y last⟩ = x := by
  have low : y.val < 16 := y.isLt
  have made : registerWord x y last = 4096 * 8 + 256 * x + (16 * y + last) := by
    unfold registerWord
    omega
  exact Instruction.x_of_word made (by omega)

theorem y_registerWord (x y : Register) : Instruction.y ⟨o, registerWord x y last⟩ = y := by
  have low : y.val < 16 := y.isLt
  rw [Instruction.y_eq]
  apply Fin.ext
  show registerWord x y last / 16 % 16 = y
  unfold registerWord
  omega

variable (shape : o.form = [.fixed 8, .x, .y, .fixed last]) (range : m.InRange)

include shape

theorem decode_registerWord (x y : Register) :
    Instruction.decode (registerWord x y last) = .ok ⟨o, registerWord x y last⟩ := by
  have high : x.val < 16 := x.isLt
  have low : y.val < 16 := y.isLt
  have small : registerWord x y last < 0x10000 := by
    unfold registerWord
    omega
  refine Instruction.decode_of_fits small
    ((Operation.fits_iff_ends shape (by trivial) small).mpr ?_)
  unfold registerWord
  omega

include range

theorem yields_assigned (f : Nat → Nat → Nat)
    (executes : ∀ (k : Machine) (w : Nat), let i : Instruction := ⟨o, w⟩
      execute i k =
        .ok ⟨⟩ (k.setRegister i.x (f (k.registers.get i.x) (k.registers.get i.y) : Nat)))
    (small : f (m.registers.get x) (m.registers.get y) ≤ 255) :
    m.Yields (registerWord x y last)
      (m.registers.Assigned x (f (m.registers.get x) (m.registers.get y))) := by
  refine .of_execute range (decode_registerWord shape x y) fun k alike _ => ⟨_, executes k _, ?_⟩
  rw [x_registerWord, y_registerWord, alike, alike]
  obtain ⟨result, others⟩ := k.registers.assigned_set (x := x) (wrapByte_natCast small)
  exact ⟨result, fun z other => (others z other).trans (alike z)⟩

theorem yields_flagged (f : Nat → Nat → Nat → Int) (raised : Nat → Nat → Nat → Bool)
    (executes : ∀ (k : Machine) (w : Nat), let i : Instruction := ⟨o, w⟩
      let vx := k.registers.get i.x
      let vy := k.registers.get i.y
      let s := k.shiftOperand i
      execute i k = .ok ⟨⟩ (k.setResult i.x (f vx vy s) (raised vx vy s)))
    {vx vy s flag : Nat} {identity : Nat → Nat → Prop} (hx : m.registers.get x = vx)
    (hy : m.registers.get y = vy)
    (hs : m.registers.get (if m.settings.implementation.shiftUsesVy then y else x) = s)
    (told : (if raised vx vy s then 1 else 0) = flag) (holds : identity (wrapByte (f vx vy s)) flag) :
    m.Yields (registerWord x y last) (m.registers.Flagged x flag identity) := by
  refine .of_execute range (decode_registerWord shape x y)
    fun k alike settings => ⟨_, executes k _, ?_⟩
  have shifted : k.shiftOperand ⟨o, registerWord x y last⟩ = s := by
    rw [shiftOperand, x_registerWord, y_registerWord, settings, alike, hs]
  -- the operands are read before anything is written, so it does not matter which registers they are
  rw [shifted, x_registerWord, y_registerWord, alike, alike, hx, hy]
  obtain ⟨carry, result, others⟩ := k.registers.flagged_setFlag (x := x) told holds
  exact ⟨carry, result, fun z other spared => (others z other spared).trans (alike z)⟩

end

structure KeepsIdentities (m : Machine) (x y : Register) (vx vy s : Nat) : Prop where
  copy : m.Yields (registerWord x y 0) (m.registers.Assigned x vy)
  or : m.Yields (registerWord x y 1) (m.registers.Assigned x (vx ||| vy))
  and : m.Yields (registerWord x y 2) (m.registers.Assigned x (vx &&& vy))
  xor : m.Yields (registerWord x y 3) (m.registers.Assigned x (vx ^^^ vy))
  add : m.Yields (registerWord x y 4)
    (m.registers.Flagged x (if 255 < vx + vy then 1 else 0) fun result flag =>
      result + 256 * flag = vx + vy)
  subtract : m.Yields (registerWord x y 5)
    (m.registers.Flagged x (if vy ≤ vx then 1 else 0) fun result flag =>
      (result : Int) = vx - vy + 256 * (1 - flag))
  shiftRight : m.Yields (registerWord x y 6)
    (m.registers.Flagged x (s % 2) fun result flag => 2 * result + flag = s)
  subtractFrom : m.Yields (registerWord x y 7)
    (m.registers.Flagged x (if vx ≤ vy then 1 else 0) fun result flag =>
      (result : Int) = vy - vx + 256 * (1 - flag))
  shiftLeft : m.Yields (registerWord x y 0xE)
    (m.registers.Flagged x (s / 128) fun result flag => result + 256 * flag = 2 * s)
  addByte : ∀ kk ≤ 255, m.Yields (byteWord x kk) (m.registers.Assigned x ((vx + kk) % 256))

/-- Whichever registers are named, what arithmetic leaves in them is told by their values before. -/
theorem arithmetic_keeps_identities (reachable : Reachable m) (x y : Register) :
    m.KeepsIdentities x y (m.registers.get x) (m.registers.get y)
      (if m.settings.implementation = .cosmacVip then m.registers.get y else m.registers.get x) := by
  have range := reachable.inRange
  have vx : m.registers.get x ≤ 255 := range.registers.bytes x
  have vy : m.registers.get y ≤ 255 := range.registers.bytes y
  have shifted : m.registers.get (if m.settings.implementation.shiftUsesVy then y else x) =
      if m.settings.implementation = .cosmacVip then m.registers.get y
      else m.registers.get x := by
    unfold Implementation.shiftUsesVy
    cases m.settings.implementation <;> rfl
  have byte : (if m.settings.implementation = .cosmacVip then m.registers.get y
      else m.registers.get x) ≤ 255 :=
    shifted ▸ range.registers.bytes _
  constructor
  case copy => exact yields_assigned (o := .copy) rfl range (fun _ vy => vy) (fun _ _ => rfl) vy
  case or =>
    exact yields_assigned (o := .or) rfl range (fun vx vy => vx ||| vy) (fun _ _ => rfl)
      (Nat.le_of_lt_succ (Nat.or_lt_two_pow (n := 8) (by omega) (by omega)))
  case and =>
    exact yields_assigned (o := .and) rfl range (fun vx vy => vx &&& vy) (fun _ _ => rfl)
      (Nat.le_trans Nat.and_le_left vx)
  case xor =>
    exact yields_assigned (o := .xor) rfl range (fun vx vy => vx ^^^ vy) (fun _ _ => rfl)
      (Nat.le_of_lt_succ (Nat.xor_lt_two_pow (n := 8) (by omega) (by omega)))
  case add =>
    exact yields_flagged (o := .add) rfl range (fun vx vy _ => vx + vy)
      (fun vx vy _ => 255 < vx + vy) (fun _ _ => rfl) rfl rfl rfl (flag_decide _)
      (wrapByte_add_carry vx vy)
  case subtract =>
    exact yields_flagged (o := .subtract) rfl range (fun vx vy _ => vx - vy)
      (fun vx vy _ => vy ≤ vx) (fun _ _ => rfl) rfl rfl rfl (flag_decide _)
      (wrapByte_sub_borrow vx vy)
  case shiftRight =>
    exact yields_flagged (o := .shiftRight) rfl range (fun _ _ s => s / 2)
      (fun _ _ s => s % 2 = 1) (fun _ _ => rfl) rfl rfl shifted (flag_lowBit _)
      (wrapByte_half byte)
  case subtractFrom =>
    exact yields_flagged (o := .subtractFrom) rfl range (fun vx vy _ => vy - vx)
      (fun vx vy _ => vx ≤ vy) (fun _ _ => rfl) rfl rfl rfl (flag_decide _)
      (wrapByte_sub_borrow vy vx)
  case shiftLeft =>
    exact yields_flagged (o := .shiftLeft) rfl range (fun _ _ s => s * 2)
      (fun _ _ s => s / 128 % 2 = 1) (fun _ _ => rfl) rfl rfl shifted (flag_highBit byte)
      (wrapByte_double _)
  case addByte =>
    intro kk small
    exact yields_addByte range small

/-- The flag register is added to itself, and subtracted from another register. -/
theorem arithmetic_keeps_identities_of_flag :
    let m := new.perform (.execute ⟨.setByte, 0x6FC8⟩)
    Reachable m ∧
      m.Yields 0x8FF4 (m.registers.Flagged flagRegister 1 fun result flag =>
        result + 256 * flag = 400) ∧
      m.Yields 0x80F5 (m.registers.Flagged ⟨0, by decide⟩ 0 fun result flag =>
        (result : Int) = 0 - 200 + 256 * (1 - flag)) := by
  intro m
  have reachable : Reachable m := .perform _ (.new {} _)
  exact ⟨reachable, (arithmetic_keeps_identities reachable flagRegister flagRegister).add,
    (arithmetic_keeps_identities reachable ⟨0, by decide⟩ flagRegister).subtract⟩

end Machine

end ChipEight
