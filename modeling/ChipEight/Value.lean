import ChipEight.Number
import ChipEight.Text.Quoted

/-!
What a caller may hand over where a number or a name is expected: any value of a data format, of
which only some are accepted. Messages show the refused ones through `Value.literal`.
-/

namespace ChipEight

inductive Value where
  | null
  | bool (b : Bool)
  | number (n : Number)
  | text (s : String)
  | list (vs : List Value)
  | record (fields : List (String × Value))
  deriving Inhabited, BEq

namespace Value

@[match_pattern] abbrev whole (n : Int) : Value := number (.whole n)

@[match_pattern] abbrev double (x : Float) : Value := number (.double x)

def ofBytes (bytes : List UInt8) : Value :=
  list (bytes.map fun b => whole b.toNat)

mutual

def literal : Value → String
  | null => "None"
  | bool true => "True"
  | bool false => "False"
  | number n => n.text
  | text s => Text.quoted s
  | list vs => "[" ++ literals vs ++ "]"
  | record fields => "\x7b" ++ fieldLiterals fields ++ "\x7d"

def literals : List Value → String
  | [] => ""
  | [v] => literal v
  | v :: vs => literal v ++ ", " ++ literals vs

def fieldLiterals : List (String × Value) → String
  | [] => ""
  | [(name, v)] => Text.quoted name ++ ": " ++ literal v
  | (name, v) :: fields => Text.quoted name ++ ": " ++ literal v ++ ", " ++ fieldLiterals fields

end

def toNumber? : Value → Option Number
  | number n => some n
  | bool b => some (.whole (if b then 1 else 0))
  | _ => none

def toInt? : Value → Option Int
  | whole n => some n
  | bool b => some (if b then 1 else 0)
  | _ => none

def kind : Value → String
  | null => "NoneType"
  | bool _ => "bool"
  | whole _ => "int"
  | double _ => "float"
  | text _ => "str"
  | list _ => "list"
  | record _ => "dict"

def isSequence : Value → Bool
  | text _ | list _ => true
  | _ => false

def hasFormat : Value → Bool
  | bool _ | number _ | text _ => true
  | _ => false

def plain : Value → String
  | text s => s
  | v => v.literal

def isTrue : Value → Bool
  | null => false
  | bool b => b
  | number n => n.isNonZero
  | text s => s ≠ ""
  | list vs => !vs.isEmpty
  | record fields => !fields.isEmpty

end Value

end ChipEight
