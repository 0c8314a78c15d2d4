import ChipEight.Decimal.Rounding

/-!
A double is a sign, a natural number and a power of two. `Dyadic` is that decomposition, and the
place where a double is compared, truncated and rounded exactly, in whole-number arithmetic.
-/

namespace ChipEight

structure Dyadic where
  negative : Bool
  mantissa : Nat
  exponent : Int
  deriving DecidableEq, Repr

namespace Dyadic

/-- The exact value of a double. An infinity reads as the power of two just past the largest
finite double. -/
def ofFloat (x : Float) : Dyadic :=
  let bits := x.toBits.toNat
  let field : Nat := bits / Nat.pow 2 52 % Nat.pow 2 11
  let fraction := bits % Nat.pow 2 52
  { negative := bits / Nat.pow 2 63 = 1
    mantissa := if field = 0 then fraction else fraction + Nat.pow 2 52
    exponent := if field = 0 then -1074 else (field : Int) - 1075 }

def ofInt (n : Int) : Dyadic :=
  { negative := n < 0, mantissa := n.natAbs, exponent := 0 }

def toFloat (d : Dyadic) : Float :=
  let size := (Float.ofNat d.mantissa).scaleB d.exponent
  if d.negative then -size else size

/-- The dyadic number nearest to `n / d` among those with 53 binary digits whose last digit is worth
at least as much as the last digit of a double can be. -/
def nearest (n d : Nat) : Dyadic :=
  if n = 0 then ⟨false, 0, 0⟩
  else
    -- the quotient of the scaled numbers has 53 binary digits, or 54 when `n` is relatively long
    let shift : Int := 52 + (d.log2 : Int) - (n.log2 : Int)
    let round (shift : Int) : Nat :=
      Decimal.nearestQuotient (n * Nat.pow 2 shift.toNat) (d * Nat.pow 2 (-shift).toNat)
    let long := n * Nat.pow 2 shift.toNat / (d * Nat.pow 2 (-shift).toNat)
    let shift := min 1074 (if long < Nat.pow 2 52 then shift + 1 else shift)
    ⟨false, round shift, -shift⟩

def fits (d : Dyadic) : Bool :=
  d.mantissa * Nat.pow 2 d.exponent.toNat < Nat.pow 2 1024

theorem scaled_lt {n limit : Nat} (positive : 0 < n) (small : 2 * n ≤ limit)
    (room : Nat.pow 2 54 ≤ limit) {shift : Int} (low : min 1074 (52 - (n.log2 : Int)) ≤ shift)
    (high : shift + n.log2 ≤ 53) :
    Decimal.nearestQuotient (n * Nat.pow 2 shift.toNat) (1 * Nat.pow 2 (-shift).toNat) *
      Nat.pow 2 (-shift).toNat < limit := by
  simp only [Nat.pow_eq, Nat.one_mul] at room ⊢
  have close :=
    Decimal.nearestQuotient_close (n * 2 ^ shift.toNat) (Nat.two_pow_pos (-shift).toNat)
  generalize Decimal.nearestQuotient _ _ * _ = rounded at close ⊢
  rcases Int.lt_or_le shift 0 with coarse | fine
  -- the last digit is worth at most the whole number, so rounding adds at most half of that
  · have unit : 2 ^ (-shift).toNat ≤ n :=
      Nat.le_trans (Nat.pow_le_pow_right (by decide) (by omega)) (Nat.log2_self_le (by omega))
    rw [show shift.toNat = 0 by omega] at close
    omega
  -- nothing is rounded, and there are at most 54 digits
  · have digits : n * 2 ^ shift.toNat < 2 ^ 54 :=
      calc n * 2 ^ shift.toNat
        _ < 2 ^ (n.log2 + 1) * 2 ^ shift.toNat :=
          Nat.mul_lt_mul_of_pos_right Nat.lt_log2_self (Nat.two_pow_pos _)
        _ = 2 ^ (n.log2 + 1 + shift.toNat) := (Nat.pow_add ..).symm
        _ ≤ 2 ^ 54 := Nat.pow_le_pow_right (by decide) (by omega)
    rw [show (-shift).toNat = 0 by omega] at close
    omega

/-- A number that is well within the range of the doubles rounds to one of them. -/
theorem fits_nearest {n : Nat} (small : 2 * n ≤ Nat.pow 2 1024) : (nearest n 1).fits := by
  rcases Nat.eq_zero_or_pos n with rfl | positive
  · decide +kernel
  · have room : Nat.pow 2 54 ≤ Nat.pow 2 1024 := by decide +kernel
    have base : Nat.log2 1 = 0 := by decide
    rw [fits, decide_eq_true_iff, nearest, if_neg (by omega)]
    simp only [base]
    refine scaled_lt positive small room ?_ ?_
    · split <;> omega
    · split <;> omega

def ratio (d : Dyadic) (ten : Int) : Nat × Nat :=
  (d.mantissa * Nat.pow 2 d.exponent.toNat * Nat.pow 10 (-ten).toNat,
    Nat.pow 2 (-d.exponent).toNat * Nat.pow 10 ten.toNat)

def truncate (d : Dyadic) : Int :=
  let (n, m) := d.ratio 0
  if d.negative then -((n / m : Nat) : Int) else (n / m : Nat)

def scaledTo (d : Dyadic) (exponent : Int) : Int :=
  let size : Nat := d.mantissa * Nat.pow 2 (d.exponent - exponent).toNat
  if d.negative then -size else size

/-- What is left of `a` when the size of `b`, which is not zero, is taken away from it as often as
it fits. No digit is lost. -/
def remainder (a b : Dyadic) : Dyadic :=
  let exponent := min a.exponent b.exponent
  ⟨a.negative, (a.scaledTo exponent).natAbs % (b.scaledTo exponent).natAbs, exponent⟩

def blt (a b : Dyadic) : Bool :=
  let exponent := min a.exponent b.exponent
  a.scaledTo exponent < b.scaledTo exponent

end Dyadic

end ChipEight
