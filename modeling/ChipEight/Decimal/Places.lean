import ChipEight.Dyadic

/-! Decimals with one place, a half going to the even neighbour. -/

namespace ChipEight.Decimal

/-- A double with one digit after the point. The sign is kept also where all digits are zero; an
infinity has no digits at all, and what is no number has no sign either. -/
def onePlace (x : Float) : String :=
  let d := Dyadic.ofFloat x
  let (n, m) := d.ratio (-1)
  let tenths := nearestQuotient n m
  let unsigned :=
    if x.isNaN then "nan"
    else if x.isInf then "inf"
    else toString (tenths / 10) ++ "." ++ toString (tenths % 10)
  if d.negative ∧ ¬ x.isNaN then "-" ++ unsigned else unsigned

end ChipEight.Decimal
