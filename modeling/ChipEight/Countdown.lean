/-! The delay timer and the sound timer, which count down once a frame until they are zero. -/

namespace ChipEight

structure Countdown where
  delay : Nat := 0
  sound : Nat := 0
  deriving DecidableEq, Repr

namespace Countdown

def clamp (n : Int) : Nat :=
  (max 0 (min 255 n)).toNat

theorem clamp_le (n : Int) : clamp n ≤ 255 := by
  unfold clamp
  omega

def setDelay (c : Countdown) (n : Int) : Countdown :=
  { c with delay := clamp n }

def setSound (c : Countdown) (n : Int) : Countdown :=
  { c with sound := clamp n }

def tick (c : Countdown) : Countdown :=
  { delay := c.delay - 1, sound := c.sound - 1 }

def ticks (c : Countdown) (n : Nat) : Countdown :=
  { delay := c.delay - n, sound := c.sound - n }

theorem ticks_zero (c : Countdown) : c.ticks 0 = c := rfl

theorem ticks_succ (c : Countdown) (n : Nat) : c.ticks (n + 1) = (c.ticks n).tick := by
  simp only [ticks, tick, Nat.sub_sub]

end Countdown

end ChipEight
