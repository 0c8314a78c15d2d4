import ChipEight.Text.Digit

/-! The text of an integer, in digits of any script. -/

namespace ChipEight.Text

def digitLimit : Nat := 4300

inductive IntegerProblem where
  | malformed
  | tooLong (digits : Nat)
  deriving DecidableEq, Repr

def trim (cs : List Char) : List Char :=
  ((cs.dropWhile isBlank).reverse.dropWhile isBlank).reverse

def splitSign : List Char → Bool × List Char
  | '-' :: rest => (true, rest)
  | '+' :: rest => (false, rest)
  | cs => (false, cs)

/-- The digits that a text begins with, most significant first and behind those in `seen`, which are
in reverse; and what comes after them. There is no answer if an underscore among them does not stand
between two digits. -/
def leadingDigits (seen : List Nat) : List Char → Option (List Nat × List Char)
  | [] => some (seen.reverse, [])
  | c :: '_' :: d :: rest =>
    match digitValue? c, digitValue? d with
    | some n, some _ => leadingDigits (n :: seen) (d :: rest)
    | some _, none => none
    | none, _ => some (seen.reverse, c :: '_' :: d :: rest)
  | [c, '_'] =>
    match digitValue? c with
    | some _ => none
    | none => some (seen.reverse, [c, '_'])
  | c :: rest =>
    match digitValue? c with
    | some n => leadingDigits (n :: seen) rest
    | none => some (seen.reverse, c :: rest)

def ofDigits (ds : List Nat) : Nat :=
  ds.foldl (fun n d => 10 * n + d) 0

def readInteger (text : String) : Except IntegerProblem Int :=
  let (negative, body) := splitSign (text.toList.dropWhile isBlank)
  match leadingDigits [] body with
  | none => .error .malformed
  | some (ds, rest) =>
    if digitLimit < ds.length then .error (.tooLong ds.length)
    else if ds = [] ∨ ¬ rest.all isBlank then .error .malformed
    else .ok (if negative then -(ofDigits ds : Int) else (ofDigits ds : Int))

def integer? (text : String) : Option Int :=
  (readInteger text).toOption

end ChipEight.Text
