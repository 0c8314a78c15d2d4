/-! Whole numbers written in base sixteen, and bytes read back. -/

namespace ChipEight.Hex

def lower (n : Nat) : String :=
  String.ofList (Nat.toDigits 16 n)

def upper (n : Nat) : String :=
  String.ofList ((Nat.toDigits 16 n).map Char.toUpper)

def upperInt : Int → String
  | .ofNat n => upper n
  | .negSucc n => "-" ++ upper (n + 1)

def zeroFill (width : Nat) (text : String) : String :=
  String.ofList (List.replicate (width - text.length) '0') ++ text

def padded (width n : Nat) : String :=
  zeroFill width (upper n)

def byte (b : UInt8) : String :=
  zeroFill 2 (lower b.toNat)

def bytes (bs : List UInt8) : String :=
  String.join (bs.map byte)

def digitValue? (c : Char) : Option Nat :=
  if '0' ≤ c ∧ c ≤ '9' then some (c.toNat - '0'.toNat)
  else if 'a' ≤ c ∧ c ≤ 'f' then some (c.toNat - 'a'.toNat + 10)
  else if 'A' ≤ c ∧ c ≤ 'F' then some (c.toNat - 'A'.toNat + 10)
  else none

def read (cs : List Char) : Nat :=
  cs.foldl (fun n c => 16 * n + (digitValue? c).getD 0) 0

def isGap (c : Char) : Bool :=
  c = ' ' || ('\t' ≤ c && c ≤ '\r')

/-- The bytes that pairs of digits stand for, behind those in `seen`, which are in reverse. A text
that is not made of pairs is refused by the place, from `place` on, of the first character that does
not fit. -/
def bytesFrom (seen : List UInt8) (place : Nat) : List Char → Except Nat (List UInt8)
  | [] => .ok seen.reverse
  | [c] => if isGap c then .ok seen.reverse else .error (place + (digitValue? c).toList.length)
  | high :: low :: rest =>
    if isGap high then bytesFrom seen (place + 1) (low :: rest)
    else
      match digitValue? high, digitValue? low with
      | some n, some m => bytesFrom (UInt8.ofNat (16 * n + m) :: seen) (place + 2) rest
      | some _, none => .error (place + 1)
      | none, _ => .error place

def readBytes (text : String) : Except Nat (List UInt8) :=
  let cs := text.toList
  match cs.findIdx? (127 < ·.toNat) with
  | some place => .error place
  | none => bytesFrom [] 0 cs

end ChipEight.Hex
