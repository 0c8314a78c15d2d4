import ChipEight.Failure
import ChipEight.Text.Real

/-!
A caller may hand over any value where a number is expected. The number is taken out of it here, or
the value is refused for the purpose that it was meant for.
-/

namespace ChipEight

def Number.integer (n : Number) : Except Failure Int :=
  match n.side with
  | some 0 => .ok n.truncate
  | some _ => .error .notFinite
  | none => .error .notNumber

def Number.real (n : Number) : Except Failure Float :=
  if n.hasFloat then .ok n.toFloat else .error .noFloat

namespace Value

def asNumber (refusal : Failure) (v : Value) : Except Failure Number :=
  match v.toNumber? with
  | some n => .ok n
  | none => .error refusal

def asInteger (purpose : Use) (v : Value) : Except Failure Int :=
  match v.toInt? with
  | some n => .ok n
  | none => .error (.unfit v purpose)

def asBits (operator : String) (v : Value) : Except Failure Int :=
  match v.toInt? with
  | some n => .ok n
  | none => .error (.operands operator v (.whole 0))

def integer : Value → Except Failure Int
  | number n => n.integer
  | bool b => .ok (if b then 1 else 0)
  | text s =>
    (Text.readInteger s).mapError fun
      | .malformed => .notLiteral s
      | .tooLong digits => .tooManyDigits digits
  | v => .error (.unfit v .conversion)

def real (v : Value) : Except Failure Float :=
  match v, v.toNumber? with
  | _, some n => n.real
  | text s, none =>
    match Text.real? s with
    | some x => .ok x
    | none => .error (.notReal s)
  | v, none => .error (.unfit v .real)

/-- The bits of the double that a value stands for. A literal of no number at all gives its sign. -/
def realBits (v : Value) : Except Failure UInt64 := do
  let x ← v.real
  match v with
  | text s => return (Text.realBits? s).getD x.toBits
  | _ => return x.toBits

def items (purpose : Use) : Value → Except Failure (List Value)
  | list vs => .ok vs
  | text s => .ok (s.toList.map fun c => text c.toString)
  | record fields => .ok (fields.map fun field => text field.1)
  | v => .error (.unfit v purpose)

end Value

end ChipEight
