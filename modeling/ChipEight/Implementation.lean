/-! The interpreters that a machine can be like. They differ in three habits. -/

namespace ChipEight

inductive Implementation where
  | cosmacVip
  | superChip
  | chip48
  deriving DecidableEq, Repr

namespace Implementation

def all : List Implementation := [cosmacVip, superChip, chip48]

def name : Implementation → String
  | cosmacVip => "COSMAC VIP"
  | superChip => "SUPER-CHIP"
  | chip48 => "CHIP48"

def ofName? (name : String) : Option Implementation :=
  all.find? (·.name = name)

/-- The shift instructions shift `VY` into `VX`; otherwise they shift `VX` in place. -/
def shiftUsesVy (i : Implementation) : Bool := i = cosmacVip

/-- `BNNN` adds the register named by the high digit of `NNN`; otherwise it adds `V0`. -/
def jumpUsesVx (i : Implementation) : Bool := i ≠ cosmacVip

/-- `FX1E` reports in `VF` whether the sum passed the end of memory. -/
def indexOverflowSetsVf (i : Implementation) : Bool := i ≠ cosmacVip

end Implementation

end ChipEight
