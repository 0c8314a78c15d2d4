import ChipEight.Text.Hex

/-!
A text with slots that values are written into: a percent sign, flags, a width, a precision, a size
of no effect, and a letter. `Template.demands` lists what a template asks for.
-/

namespace ChipEight.Text

inductive TemplateProblem where
  | incomplete
  | named
  | widthTooBig
  | precisionTooBig
  | precisionTooLarge
  | unknown (letter : Char) (place : Nat)
  | tooFewValues
  | tooManyValues
  | brokenStar
  | endlessWidth
  | endlessPrecision
  | notWhole (letter : Char)
  | notCharacter
  | noCharacter
  deriving DecidableEq, Repr

def plainCharacter (c : Char) : Char :=
  if 31 ≤ c.toNat ∧ c.toNat < 127 then c else '?'

def TemplateProblem.text : TemplateProblem → String
  | incomplete => "incomplete format"
  | named => "format requires a mapping"
  | widthTooBig => "width too big"
  | precisionTooBig => "precision too big"
  | precisionTooLarge => "precision too large"
  | unknown letter place =>
    "unsupported format character '" ++ (plainCharacter letter).toString ++ "' (0x"
      ++ Hex.lower letter.toNat ++ ") at index " ++ toString place
  | tooFewValues => "not enough arguments for format string"
  | tooManyValues => "not all arguments converted during string formatting"
  | brokenStar => "* wants int"
  | endlessWidth => "Python int too large to convert to C ssize_t"
  | endlessPrecision => "Python int too large to convert to C int"
  | notWhole letter =>
    "%" ++ letter.toString ++ " format: an integer is required, not float"
  | notCharacter => "%c requires int or char"
  | noCharacter => "%c arg not in range(0x110000)"

namespace Template

inductive Demand where
  | width
  | precision
  | value (letter : Char) (place : Nat) (width precision : Option Nat)
  deriving DecidableEq, Repr

inductive Part where
  | outside
  | opening
  | flags
  | width
  | point
  | fraction
  | precision
  | size
  | letter
  deriving DecidableEq, Repr

/-- How far a template was read: the part that comes next, and the numbers of the slot. -/
structure Progress where
  part : Part := .outside
  width : Option Nat := none
  precision : Option Nat := none
  deriving DecidableEq, Repr

abbrev Advance := Except TemplateProblem (Progress × Option Demand)

def addDigit (n : Option Nat) (c : Char) : Nat :=
  10 * n.getD 0 + (c.toNat - '0'.toNat)

namespace Progress

def readLetter (p : Progress) (place : Nat) (c : Char) : Advance :=
  .ok ({}, some (.value c place p.width p.precision))

def readSize (p : Progress) (place : Nat) (c : Char) : Advance :=
  if c ∈ ['h', 'l', 'L'] then .ok ({ p with part := .letter }, none) else p.readLetter place c

def readPrecision (p : Progress) (place : Nat) (c : Char) : Advance :=
  if c.isDigit then
    let n := addDigit p.precision c
    if n < Nat.pow 2 31 then .ok ({ p with part := .precision, precision := some n }, none)
    else .error .precisionTooBig
  else p.readSize place c

def readFraction (p : Progress) (place : Nat) (c : Char) : Advance :=
  if c = '*' then .ok ({ p with part := .size }, some .precision)
  else { p with precision := some 0 }.readPrecision place c

def readPoint (p : Progress) (place : Nat) (c : Char) : Advance :=
  if c = '.' then .ok ({ p with part := .fraction }, none) else p.readSize place c

def readWidth (p : Progress) (place : Nat) (c : Char) : Advance :=
  if c.isDigit then
    let n := addDigit p.width c
    if n < Nat.pow 2 63 then .ok ({ p with part := .width, width := some n }, none)
    else .error .widthTooBig
  else p.readPoint place c

def readFlag (p : Progress) (place : Nat) (c : Char) : Advance :=
  if c ∈ ['-', '+', ' ', '#', '0'] then .ok ({ p with part := .flags }, none)
  else if c = '*' then .ok ({ p with part := .point }, some .width)
  else p.readWidth place c

def read (p : Progress) (place : Nat) (c : Char) : Advance :=
  match p.part with
  | .outside => .ok (if c = '%' then { part := .opening } else {}, none)
  | .opening =>
    if c = '%' then .ok ({}, none) else if c = '(' then .error .named else p.readFlag place c
  | .flags => p.readFlag place c
  | .width => p.readWidth place c
  | .point => p.readPoint place c
  | .fraction => p.readFraction place c
  | .precision => p.readPrecision place c
  | .size => p.readSize place c
  | .letter => p.readLetter place c

end Progress

def demandsFrom (p : Progress) (place : Nat) : List Char → List (Except TemplateProblem Demand)
  | [] => if p.part = .outside then [] else [.error .incomplete]
  | c :: rest =>
    match p.read place c with
    | .error problem => [.error problem]
    | .ok (p, demand) => (demand.toList.map .ok) ++ demandsFrom p (place + 1) rest

/-- What a template asks for in order; the last item may tell why it is malformed behind that. -/
def demands (template : String) : List (Except TemplateProblem Demand) :=
  demandsFrom {} 0 template.toList

end Template

end ChipEight.Text
