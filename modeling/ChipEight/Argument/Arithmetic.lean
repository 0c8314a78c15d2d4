import ChipEight.Argument

/-!
The operators on values of any kind: numbers are reckoned with, texts and lists are joined and
repeated, and all other pairs of kinds are refused by a message that names both.
-/

namespace ChipEight

namespace Number

def combined (f : Number → Number → Number) (a b : Number) : Except Failure Number :=
  if a.combines b then .ok (f a b) else .error .noFloat

def plus (a b : Number) : Except Failure Number :=
  combined (· + ·) a b

def minus (a b : Number) : Except Failure Number :=
  combined (· - ·) a b

def times (a b : Number) : Except Failure Number :=
  combined (· * ·) a b

@[simp] theorem plus_whole (a b : Int) : (whole a).plus (.whole b) = .ok (.whole (a + b)) := rfl

@[simp] theorem minus_whole (a b : Int) : (whole a).minus (.whole b) = .ok (.whole (a - b)) := rfl

@[simp] theorem times_whole (a b : Int) : (whole a).times (.whole b) = .ok (.whole (a * b)) := rfl

def isDouble : Number → Bool
  | .whole _ => false
  | .double _ => true

def modulo (a b : Number) : Except Failure Number :=
  if !a.combines b then .error .noFloat
  else if b.isNonZero then .ok (a.floorMod b)
  else .error (.noRemainder (a.isDouble || b.isDouble))

end Number

inductive Relation where
  | below
  | atMost
  | above
  | atLeast
  deriving DecidableEq, Repr

namespace Relation

def sign : Relation → String
  | below => "<"
  | atMost => "<="
  | above => ">"
  | atLeast => ">="

def holds (r : Relation) (a b : Number) : Bool :=
  match r with
  | below => a < b
  | atMost => a ≤ b
  | above => b < a
  | atLeast => b ≤ a

def holdsOfTexts (r : Relation) (s t : String) : Bool :=
  match r with
  | below => s < t
  | atMost => !(t < s)
  | above => t < s
  | atLeast => !(s < t)

end Relation

namespace Value

def compare (r : Relation) (a b : Value) : Except Failure Bool :=
  match a, b, a.toNumber?, b.toNumber? with
  | _, _, some m, some n => .ok (r.holds m n)
  | text s, text t, _, _ => .ok (r.holdsOfTexts s t)
  | _, _, _, _ => .error (.incomparable r.sign a b)

def reckon (operator : String) (f : Number → Number → Except Failure Number) (a b : Value) :
    Except Failure Number :=
  match a.toNumber?, b.toNumber? with
  | some m, some n => f m n
  | _, _ => .error (.operands operator a b)

def minus (a b : Value) : Except Failure Number :=
  reckon "-" Number.minus a b

def join (operator : String) (a b : Value) : Except Failure Value :=
  match a, b with
  | text s, text t => .ok (text (s ++ t))
  | list vs, list ws => .ok (list (vs ++ ws))
  | a, b => (reckon operator Number.plus a b).map number

def plus (a b : Value) : Except Failure Value :=
  join "+" a b

/-- A value after another was added to it in its place. A list is continued by the items of the
other. -/
def advance (a b : Value) : Except Failure Value :=
  match a with
  | list vs => (b.items .iteration).map fun ws => list (vs ++ ws)
  | a => join "+=" a b

/-- How often a row is repeated whose items, so many of them, take `size` bytes each. A row without
items is nothing however often it is repeated. -/
def repetitions (tooLong : Failure) (size length : Nat) (times : Int) : Except Failure Nat :=
  let total := length * times.toNat
  if !fitsWord times then .error .endless
  else if total = 0 then .ok 0
  else if Nat.pow 2 63 ≤ total then .error tooLong
  else if allotmentLimit < size * total then .error .noMemory
  else .ok times.toNat

inductive Product where
  | number (n : Number)
  | copies (row : Value) (times : Nat)

def itemSize : Nat := 8

def copies (v : Value) (times : Int) : Except Failure Product :=
  match v with
  | text s => (repetitions .endlessText 1 s.length times).map (.copies v)
  | list vs => (repetitions .noMemory itemSize vs.length times).map (.copies v)
  | _ => .error (.operands "*" v (.whole times))

def product (a b : Value) : Except Failure Product :=
  match a.isSequence, b.isSequence, a.toInt?, b.toInt? with
  | true, false, _, some n => a.copies n
  | false, true, some n, _ => b.copies n
  | _, _, _, _ => (reckon "*" Number.times a b).map .number

def repeated {α : Type} (items : List α) (times : Nat) : Except Failure (List α) :=
  if roomLimit < items.length * times then .error .noMemory
  else .ok (Nat.repeat (items ++ ·) times [])

def Product.value : Product → Except Failure Value
  | number n => .ok (.number n)
  | copies (.text s) times => (repeated s.toList times).map fun cs => .text (String.ofList cs)
  | copies (.list vs) times => (repeated vs times).map .list
  | copies v _ => .ok v

def times (a b : Value) : Except Failure Value := do
  (← product a b).value

def negated (v : Value) : Except Failure Number :=
  match v.toNumber? with
  | some (.whole n) => .ok (.whole (-n))
  | some (.double x) => .ok (.double (-x))
  | none => .error (.unfit v .negation)

@[simp] theorem minus_whole (a b : Int) : (whole a).minus (whole b) = .ok (.whole (a - b)) := rfl

@[simp] theorem plus_whole (a b : Int) : (whole a).plus (whole b) = .ok (whole (a + b)) := rfl

@[simp] theorem times_whole (a b : Int) : (whole a).times (whole b) = .ok (whole (a * b)) := rfl

/-- So many integers, the first one given and the others a stride apart. The end behind the last one
is reckoned first, and then all three have to be integers. Of a text or a list that would be copied
only the kind counts. -/
def progression (first count stride : Value) : Except Failure (List Int) := do
  let last ← match ← count.product stride with
    | .number n => first.plus (.number n)
    | .copies row _ => first.plus row
  let start ← first.asInteger .count
  let stop ← last.asInteger .count
  let step ← stride.asInteger .count
  if step = 0 then throw .noStride
  return (List.range ((stop - start) / step).toNat).map fun k : Nat => start + k * step

end Value

end ChipEight
