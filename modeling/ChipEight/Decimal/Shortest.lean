import ChipEight.Dyadic

/-!
The shortest decimal that reads back as a given double: the first grid of decimals with a neighbour
of the value in the interval of the reals that round to the double.
-/

namespace ChipEight.Decimal

structure Shortest where
  digits : Nat
  exponent : Int
  deriving DecidableEq, Repr

def digitCount (n : Nat) : Nat :=
  (Nat.toDigits 10 n).length

namespace Shortest

/-- The exponent of the first decimal digit of a positive value: the power of ten not above it.
The factor `10 ^ 400` lifts every positive double above one. -/
def leadingExponent (d : Dyadic) : Int :=
  let (n, m) := d.ratio (-400)
  (digitCount (n / m) : Int) - 401

/-- Whether `c · 10 ^ k` rounds to the double `d`. Below a power of two the doubles lie twice as
close, so the lower end is only a quarter of a unit away there. -/
def roundsTo (d : Dyadic) (c : Nat) (k : Int) : Bool :=
  let below := if d.mantissa = Nat.pow 2 52 ∧ -1074 < d.exponent then 1 else 2
  let quarters (n : Nat) : Nat × Nat :=
    ratio { d with mantissa := n, exponent := d.exponent - 2 } k
  let (lowN, lowD) := quarters (4 * d.mantissa - below)
  let (highN, highD) := quarters (4 * d.mantissa + 2)
  if d.mantissa % 2 = 0 then lowN ≤ c * lowD ∧ c * highD ≤ highN
  else lowN < c * lowD ∧ c * highD < highN
where
  ratio (d : Dyadic) (k : Int) : Nat × Nat := d.ratio k

/-- The neighbour of `d` among the multiples of `10 ^ k` that rounds to `d`; of two the nearer,
and the even one of two at equal distance. -/
def onGrid (d : Dyadic) (k : Int) : Option Nat :=
  let (n, m) := d.ratio k
  let c := n / m
  match roundsTo d c k, roundsTo d (c + 1) k with
  | true, true => some (nearestQuotient n m)
  | true, false => some c
  | false, true => some (c + 1)
  | false, false => none

/-- The first grid with at least `digits` digits that has an answer. Seventeen digits always
have one. -/
def search (d : Dyadic) (leading : Int) : Nat → Nat → Shortest
  | 0, digits =>
    let k := leading - digits + 1
    let (n, m) := d.ratio k
    ⟨nearestQuotient n m, k⟩
  | fuel + 1, digits =>
    let k := leading - digits + 1
    match onGrid d k with
    | some c => ⟨c, k⟩
    | none => search d leading fuel (digits + 1)

def ofDyadic (d : Dyadic) : Shortest :=
  search d (leadingExponent d) 16 1

structure Style where
  lowest : Int
  limit : Int
  exponentDigits : Nat

def plain : Style := ⟨-4, 16, 2⟩

private def stripZeros : List Char → List Char :=
  fun cs => (cs.reverse.dropWhile (· = '0')).reverse

private def zeros (n : Int) : String :=
  String.ofList (List.replicate n.toNat '0')

def text (style : Style) (s : Shortest) : String :=
  let all := Nat.toDigits 10 s.digits
  let digits := match stripZeros all with
    | [] => ['0']
    | ds => ds
  -- the number of digits before the point when the number is written positionally
  let whole : Int := if s.digits = 0 then 1 else all.length + s.exponent
  let leading := whole - 1
  if style.lowest ≤ leading ∧ leading < style.limit then
    if whole ≤ 0 then "0." ++ zeros (-whole) ++ String.ofList digits
    else if digits.length ≤ whole.toNat then
      String.ofList digits ++ zeros (whole - digits.length) ++ ".0"
    else String.ofList (digits.take whole.toNat) ++ "." ++ String.ofList (digits.drop whole.toNat)
  else
    let fraction := match digits.drop 1 with
      | [] => ""
      | ds => "." ++ String.ofList ds
    let size := toString leading.natAbs
    String.ofList (digits.take 1) ++ fraction ++ "e" ++ (if leading < 0 then "-" else "+")
      ++ zeros (style.exponentDigits - size.length) ++ size

end Shortest

def shortestText (x : Float) : String :=
  let d := Dyadic.ofFloat x
  let size := if d.mantissa = 0 then ⟨0, 0⟩ else Shortest.ofDyadic d
  let unsigned :=
    if x.isNaN then "nan"
    else if x.isInf then "inf"
    else size.text Shortest.plain
  if d.negative ∧ ¬ x.isNaN then "-" ++ unsigned else unsigned

end ChipEight.Decimal
