import ChipEight.Text.Integer

/-! The text of a double. -/

namespace ChipEight.Text

def digitRun (cs : List Char) : Option (Nat × Nat × List Char) :=
  (leadingDigits [] cs).map fun (ds, rest) => (ofDigits ds, ds.length, rest)

def exponent? : List Char → Option Int
  | [] => some 0
  | e :: cs =>
    if e = 'e' ∨ e = 'E' then
      let (negative, body) := splitSign cs
      match digitRun body with
      | some (n, _ + 1, []) => some (if negative then -(n : Int) else n)
      | _ => none
    else none

/-- The double nearest to `number · 10 ^ exponent`, for a number of so many digits. What is far
beyond all doubles, or far below them, is not reckoned out. -/
def scaled (number digits : Nat) (exponent : Int) : Float :=
  if number = 0 ∨ exponent + digits < -400 then 0
  else if 400 < exponent then 1.0 / 0.0
  else Float.ofScientific number (exponent < 0) exponent.natAbs

def decimal? (cs : List Char) : Option Float := do
  let (front, count, rest) ← digitRun cs
  let (back, places, rest) ← match rest with
    | '.' :: rest => digitRun rest
    | rest => some (0, 0, rest)
  guard (count + places ≠ 0)
  let exponent ← exponent? rest
  return scaled (front * Nat.pow 10 places + back) (count + places) (exponent - places)

def named? (name : String) : Option Float :=
  match name with
  | "inf" | "infinity" => some (1.0 / 0.0)
  | "nan" => some (0.0 / 0.0)
  | _ => none

def signedReal? (text : String) : Option (Bool × Float) :=
  let (negative, body) := splitSign (trim text.toList)
  (named? (String.ofList body).toLower <|> decimal? body).map (negative, ·)

def real? (text : String) : Option Float :=
  (signedReal? text).map fun (negative, x) => if negative then -x else x

def signBit : UInt64 := 0x8000000000000000

/-- The bits of the double that a literal stands for. Even what is no number keeps its sign. -/
def realBits? (text : String) : Option UInt64 :=
  (signedReal? text).map fun (negative, x) => if negative then x.toBits ||| signBit else x.toBits

end ChipEight.Text
