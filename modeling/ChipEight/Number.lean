import ChipEight.Decimal.Shortest

/-!
Whole numbers of any size, and doubles. Results stay whole as long as both operands are; comparisons
are exact in every case.
-/

namespace ChipEight

inductive Number where
  | whole (n : Int)
  | double (x : Float)
  deriving DecidableEq

namespace Number

def toFloat : Number → Float
  | .whole n =>
    let size := (Dyadic.nearest n.natAbs 1).toFloat
    if n < 0 then -size else size
  | .double x => x

def toDyadic : Number → Dyadic
  | .whole n => .ofInt n
  | .double x => .ofFloat x

def truncate : Number → Int
  | .whole n => n
  | .double x => (Dyadic.ofFloat x).truncate

protected def add : Number → Number → Number
  | .whole a, .whole b => .whole (a + b)
  | a, b => .double (a.toFloat + b.toFloat)

protected def sub : Number → Number → Number
  | .whole a, .whole b => .whole (a - b)
  | a, b => .double (a.toFloat - b.toFloat)

protected def mul : Number → Number → Number
  | .whole a, .whole b => .whole (a * b)
  | a, b => .double (a.toFloat * b.toFloat)

instance : Add Number := ⟨Number.add⟩
instance : Sub Number := ⟨Number.sub⟩
instance : Mul Number := ⟨Number.mul⟩

@[simp] theorem whole_add_whole (a b : Int) : (.whole a + .whole b : Number) = .whole (a + b) := rfl

@[simp] theorem whole_sub_whole (a b : Int) : (.whole a - .whole b : Number) = .whole (a - b) := rfl

@[simp] theorem whole_mul_whole (a b : Int) : (.whole a * .whole b : Number) = .whole (a * b) := rfl

/-- What a division of doubles toward zero leaves over, exactly: all of a finite double if it is
divided by an infinite one, and no number if it is not finite itself. -/
def rest (x y : Float) : Float :=
  if y.isNaN || !x.isFinite then 0.0 / 0.0
  else if y.isInf then x
  else ((Dyadic.ofFloat x).remainder (.ofFloat y)).toFloat

def restIsAcross (x y : Float) : Bool :=
  let r := rest x y
  r != 0 && (decide (r < 0) != decide (y < 0))

def restBeside (x y : Float) : Float :=
  let r := rest x y
  if restIsAcross x y then r + y else if r == 0 then (if y < 0 then -0.0 else 0.0) else r

def floorQuotient (x y : Float) : Float :=
  let q := (x - rest x y) / y
  let q := if restIsAcross x y then q - 1 else q
  if q - q.floor > 0.5 then q.floor + 1 else q.floor

def floorDiv : Number → Number → Number
  | .whole a, .whole b => .whole (a.fdiv b)
  | a, b => .double (floorQuotient a.toFloat b.toFloat)

def floorMod : Number → Number → Number
  | .whole a, .whole b => .whole (a.fmod b)
  | a, b => .double (restBeside a.toFloat b.toFloat)

/-- Which end of the number line a number stands at: minus one and one are the infinities, zero is
every finite number, and what is no number stands nowhere. -/
def side : Number → Option Int
  | .whole _ => some 0
  | .double x =>
    let d := Dyadic.ofFloat x
    if d.exponent < 972 then some 0
    else if d.mantissa = Nat.pow 2 52 then some (if d.negative then -1 else 1)
    else none

def blt : Number → Number → Bool
  | .whole a, .whole b => a < b
  | a, b =>
    match a.side, b.side with
    | some 0, some 0 => a.toDyadic.blt b.toDyadic
    | some i, some j => i < j
    | _, _ => false

def ble : Number → Number → Bool
  | .whole a, .whole b => a ≤ b
  | a, b => a.side.isSome && b.side.isSome && !b.blt a

instance : LT Number := ⟨fun a b => a.blt b = true⟩
instance : LE Number := ⟨fun a b => a.ble b = true⟩

instance (a b : Number) : Decidable (a < b) :=
  inferInstanceAs (Decidable (a.blt b = true))

instance (a b : Number) : Decidable (a ≤ b) :=
  inferInstanceAs (Decidable (a.ble b = true))

@[simp] theorem whole_lt_whole {a b : Int} : (.whole a : Number) < .whole b ↔ a < b :=
  decide_eq_true_iff

@[simp] theorem whole_le_whole {a b : Int} : (.whole a : Number) ≤ .whole b ↔ a ≤ b :=
  decide_eq_true_iff

def least (a b : Number) : Number :=
  if b < a then b else a

def greatest (a b : Number) : Number :=
  if a < b then b else a

@[simp] theorem least_whole (a b : Int) : (whole a).least (whole b) = .whole (min a b) := by
  by_cases less : b < a
  · rw [least, if_pos (whole_lt_whole.mpr less), Int.min_eq_right (Int.le_of_lt less)]
  · rw [least, if_neg (mt whole_lt_whole.mp less), Int.min_eq_left (Int.not_lt.mp less)]

@[simp] theorem greatest_whole (a b : Int) : (whole a).greatest (whole b) = .whole (max a b) := by
  by_cases less : a < b
  · rw [greatest, if_pos (whole_lt_whole.mpr less), Int.max_eq_right (Int.le_of_lt less)]
  · rw [greatest, if_neg (mt whole_lt_whole.mp less), Int.max_eq_left (Int.not_lt.mp less)]

def agrees (a b : Number) : Bool :=
  a ≤ b ∧ b ≤ a

def hasFloat : Number → Bool
  | .whole n => (Dyadic.nearest n.natAbs 1).fits
  | .double _ => true

/-- Whether two numbers have a sum and a difference: both are whole, or a double is near each. -/
def combines : Number → Number → Bool
  | .whole _, .whole _ => true
  | a, b => a.hasFloat && b.hasFloat

def isNonZero (a : Number) : Bool :=
  a.toDyadic.mantissa ≠ 0

def text : Number → String
  | .whole n => toString n
  | .double x => Decimal.shortestText x

end Number

end ChipEight
