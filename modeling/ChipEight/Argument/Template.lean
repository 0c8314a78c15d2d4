import ChipEight.Argument

/-! Whether a template can be filled in with a single number. -/

namespace ChipEight.Text.Template

def precisionLimit : Nat := Nat.pow 2 31 - 4

def checkPrecision (precision : Option Nat) : Except Failure Unit :=
  if precision.any (precisionLimit < ·) then .error (.template .precisionTooLarge) else .ok ()

def checkDigits (n : Int) : Except Failure Unit :=
  if Nat.pow 10 digitLimit ≤ n.natAbs then .error .unwritable else .ok ()

def checkLetter (n : Number) (letter : Char) (place : Nat) (precision : Option Nat) :
    Except Failure Unit := do
  if letter ∈ ['s', 'r', 'a'] then
    match n with
    | .whole i => checkDigits i
    | .double _ => return
  else if letter ∈ ['d', 'i', 'u'] then
    let i ← n.integer
    checkPrecision precision
    checkDigits i
  else if letter ∈ ['o', 'x', 'X'] then
    match n with
    | .whole _ => checkPrecision precision
    | .double _ => throw (.template (.notWhole letter))
  else if letter ∈ ['e', 'E', 'f', 'F', 'g', 'G'] then
    let _ ← n.real
  else if letter = 'c' then
    match n with
    | .whole i => if i < 0 ∨ 0x110000 ≤ i then throw (.template .noCharacter)
    | .double _ => throw (.template .notCharacter)
  else throw (.template (.unknown letter place))

def checkStar (n : Number) (fits : Int → Bool) (refusal : TemplateProblem) :
    Except Failure Unit :=
  match n with
  | .whole i => if fits i then .ok () else .error (.template refusal)
  | .double _ => .error (.template .brokenStar)

def Demand.check (n : Number) : Demand → Except Failure Unit
  | .width => checkStar n fitsWord .endlessWidth
  | .precision => checkStar n fitsHalfWord .endlessPrecision
  | .value letter place columns digits => do
    checkLetter n letter place digits
    if columns.any (allotmentLimit < ·) then throw .noMemory

def meet (n : Number) : List (Except TemplateProblem Demand) → Except Failure Unit
  | [] => .error (.template .tooManyValues)
  | .error problem :: _ => .error (.template problem)
  | .ok demand :: rest => do
    demand.check n
    match rest with
    | [] => return
    | .error problem :: _ => throw (.template problem)
    | .ok _ :: _ => throw (.template .tooFewValues)

def fill (template : String) (n : Number) : Except Failure Unit :=
  meet n (demands template)

end ChipEight.Text.Template
