import ChipEight.HexPad

/-!
One pass over the bytes that a terminal sends. A byte stands for a key of the pad or for nothing. An
escape at the very end asks to leave, and any other opens a sequence that is passed over.
-/

namespace ChipEight

namespace Keystroke

def escapeByte : UInt8 := 0x1B

def isOpener (b : UInt8) : Bool :=
  b == 0x5B || b == 0x4F

def isCloser (b : UInt8) : Bool :=
  0x40 ≤ b && b ≤ 0x7E

def character (b : UInt8) : Char :=
  (Char.ofNat b.toNat).toLower

section

variable (data : Array UInt8)

/-- The place behind the first byte at or behind `i` that ends a long sequence, or else the end. -/
def pastCloser (i : Nat) : Nat :=
  if inside : i < data.size then
    if isCloser data[i] then i + 1 else pastCloser (i + 1)
  else i
termination_by data.size - i

/-- The place behind a sequence whose escape is right before `i`. -/
def pastSequence (i : Nat) (inside : i < data.size) : Nat :=
  if isOpener data[i] then pastCloser data (i + 1) else i + 1

theorem le_pastCloser (i : Nat) : i ≤ pastCloser data i := by
  fun_induction pastCloser data i with
  | case1 => exact Nat.le_succ _
  | case2 i _ _ ih => exact Nat.le_of_succ_le ih
  | case3 => exact Nat.le_refl _

theorem lt_pastSequence (i : Nat) (inside : i < data.size) : i < pastSequence data i inside := by
  unfold pastSequence
  split
  · exact le_pastCloser data (i + 1)
  · exact Nat.lt_succ_self i

variable {σ : Type} (strike : Key → σ → σ) (leave : σ → σ)

def scan (i : Nat) (s : σ) : σ :=
  if inside : i < data.size then
    if data[i] = escapeByte then
      if last : i + 1 = data.size then scan (i + 1) (leave s)
      else
        have := lt_pastSequence data (i + 1) (by omega)
        scan (pastSequence data (i + 1) (by omega)) s
    else
      match HexPad.keyAt? (character data[i]) with
      | none => scan (i + 1) s
      | some key => scan (i + 1) (strike key s)
  else s
termination_by data.size - i

end

end Keystroke

end ChipEight
