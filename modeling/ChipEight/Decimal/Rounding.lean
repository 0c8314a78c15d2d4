/-! Quotients rounded to a whole number, a half going to the even neighbour. -/

namespace ChipEight.Decimal

def nearestQuotient (n d : Nat) : Nat :=
  let q := n / d
  let twice := 2 * (n % d)
  if twice < d then q
  else if d < twice then q + 1
  else if q % 2 = 0 then q
  else q + 1

theorem nearestQuotient_close (n : Nat) {d : Nat} (positive : 0 < d) :
    2 * n ≤ 2 * (nearestQuotient n d * d) + d ∧ 2 * (nearestQuotient n d * d) ≤ 2 * n + d := by
  have whole := Nat.div_add_mod n d
  have below := Nat.mod_lt n positive
  have up : (n / d + 1) * d = d * (n / d) + d := by rw [Nat.add_mul, Nat.mul_comm, Nat.one_mul]
  have down : n / d * d = d * (n / d) := Nat.mul_comm ..
  simp only [nearestQuotient]
  split
  · rw [down]; omega
  · split
    · rw [up]; omega
    · split
      · rw [down]; omega
      · rw [up]; omega

end ChipEight.Decimal
