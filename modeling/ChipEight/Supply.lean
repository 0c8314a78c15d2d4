/-! Sources of random items. Which item comes when is fixed beforehand. -/

namespace ChipEight

structure Supply (α : Type) where
  item : Nat → α
  taken : Nat := 0

namespace Supply

variable {α : Type}

def cycle (default : α) (items : List α) : Supply α :=
  let all := items.toArray
  { item := fun k => all.getD (k % all.size) default }

def next (s : Supply α) : α × Supply α :=
  (s.item s.taken, { s with taken := s.taken + 1 })

def stir (n : UInt64) : UInt64 :=
  let n := (n ^^^ (n >>> 30)) * 0xBF58476D1CE4E5B9
  let n := (n ^^^ (n >>> 27)) * 0x94D049BB133111EB
  n ^^^ (n >>> 31)

def ofSeed (seed : UInt64) : Supply UInt8 :=
  { item := fun k => (stir (seed + (UInt64.ofNat k + 1) * 0x9E3779B97F4A7C15)).toUInt8 }

end Supply

end ChipEight
