import ChipEight.Argument.Arithmetic

/-!
The bell rings once and then keeps silent until its cool-down has passed. Times may be values of any
kind; what cannot be reckoned with is refused when it has to be.
-/

namespace ChipEight

structure Bell where
  cooldown : Value := .double 0.25
  /-- The time of the last ring, or null. -/
  last : Value := .null

namespace Bell

def ring : String := "\x07"

def isSilent (b : Bell) (now : Value) : Except Failure Bool :=
  match b.last with
  | .null => .ok false
  | last => do (Value.number (← now.minus last)).compare .below b.cooldown

def beep (b : Bell) (now : Value) : Except Failure (String × Bell) :=
  (b.isSilent now).map fun silent => if silent then ("", b) else (ring, { b with last := now })

end Bell

end ChipEight
