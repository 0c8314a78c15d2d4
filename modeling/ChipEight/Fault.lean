import ChipEight.Failure

/-! Why a machine stopped: the failures that its program or its data can bring about. -/

namespace ChipEight

structure Fault where
  kind : String
  value : Value
  message : String

namespace Failure

def cause? : Failure → Option (String × Value)
  | .unknownOpcode word => some ("UnknownOpcode", .whole word)
  | .stackOverflow address => some ("StackOverflow", address)
  | .stackUnderflow => some ("StackUnderflow", .null)
  | .outOfBounds address _ => some ("OutOfBoundsWrite", address)
  | .invalidFontByte value _ => some ("InvalidFontData", value)
  | .romUnavailable path _ => some ("RomLoad", .text path)
  | _ => none

def fault? (failure : Failure) : Option Fault :=
  failure.cause?.map fun (kind, value) => ⟨kind, value, failure.message⟩

end Failure

end ChipEight
