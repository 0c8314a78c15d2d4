/-!
Where bytes wait from the moment they are typed until they are read. In canonical mode a line may be
edited until it ends; in both modes some bytes are commands to the terminal itself.
-/

namespace ChipEight

structure TerminalMode where
  echo : Bool := true
  canonical : Bool := true
  deriving DecidableEq, Repr

def TerminalMode.raw : TerminalMode := ⟨false, false⟩

inductive TerminalAction where
  | ignore
  | forget
  | eraseCharacter
  | eraseWord
  | eraseLine
  | quote
  | endLine
  | endInput
  | take (b : UInt8)
  deriving DecidableEq, Repr

namespace TerminalAction

/-- What is made of a byte in either mode. Stopping and resuming the output does nothing to the
input, an interruption forgets it, and a carriage return is a line feed. -/
def ofByte (b : UInt8) : TerminalAction :=
  if b = 0x11 ∨ b = 0x13 then ignore
  else if b = 0x03 ∨ b = 0x1A ∨ b = 0x1C then forget
  else if b = 0x0D then take 0x0A
  else take b

def inLine (b : UInt8) : TerminalAction :=
  match ofByte b with
  | take b =>
    if b = 0x0A then endLine
    else if b = 0x04 then endInput
    else if b = 0x7F then eraseCharacter
    else if b = 0x17 then eraseWord
    else if b = 0x15 then eraseLine
    else if b = 0x16 then quote
    else if b = 0x12 then ignore
    else take b
  | action => action

end TerminalAction

structure Terminal where
  mode : TerminalMode := {}
  /-- Lines that have ended and were not read, the first of them perhaps in part. -/
  lines : List (List UInt8) := []
  /-- What was typed behind them, the last byte first. -/
  typed : List UInt8 := []
  quoting : Bool := false
  deriving DecidableEq, Repr

namespace Terminal

def lineLimit : Nat := 4095

def isWordByte (b : UInt8) : Bool :=
  (Char.ofNat b.toNat).isAlphanum || b == 0x5F || (0xC0 ≤ b && b != 0xD7 && b != 0xF7)

def withoutWord (typed : List UInt8) : List UInt8 :=
  (typed.dropWhile fun b => !isWordByte b).dropWhile isWordByte

def push (t : Terminal) (b : UInt8) : Terminal :=
  if t.mode.canonical ∧ lineLimit ≤ t.typed.length then t else { t with typed := b :: t.typed }

def endWith (t : Terminal) (ending : List UInt8) : Terminal :=
  { t with lines := t.lines ++ [(ending ++ t.typed).reverse], typed := [] }

def act (t : Terminal) : TerminalAction → Terminal
  | .ignore => t
  | .forget => { t with lines := [], typed := [] }
  | .eraseCharacter => { t with typed := t.typed.drop 1 }
  | .eraseWord => { t with typed := withoutWord t.typed }
  | .eraseLine => { t with typed := [] }
  | .quote => { t with quoting := true }
  | .endLine => t.endWith [0x0A]
  | .endInput => t.endWith []
  | .take b => t.push b

def receive (t : Terminal) (b : UInt8) : Terminal :=
  if t.quoting then { t with quoting := false }.push b
  else t.act (if t.mode.canonical then .inLine b else .ofByte b)

def read (t : Terminal) (limit : Nat) : List UInt8 × Terminal :=
  if t.mode.canonical then
    match t.lines with
    | [] => ([], t)
    | line :: lines =>
      let (front, back) := line.splitAt limit
      (front, { t with lines := if back.isEmpty then lines else back :: lines })
  else
    let (front, back) := t.typed.reverse.splitAt limit
    (front, { t with typed := back.reverse })

def enterRaw (_ : Terminal) : Terminal :=
  { mode := .raw }

/-- The terminal in another mode. What was typed in raw mode and not read is then a line, and a zero
byte that it ends with is taken for its end. -/
def enter (t : Terminal) (mode : TerminalMode) : Terminal :=
  match mode.canonical && !t.mode.canonical, t.typed with
  | true, 0 :: typed => { mode, lines := [typed.reverse] }
  | true, b :: typed => { mode, lines := [(b :: typed).reverse] }
  | _, _ => { t with mode }

end Terminal

inductive Input where
  | queue (bytes : List UInt8)
  | terminal (t : Terminal)
  deriving DecidableEq, Repr

namespace Input

def mode? : Input → Option TerminalMode
  | queue _ => none
  | terminal t => some t.mode

def send (input : Input) (bytes : List UInt8) : Input :=
  match input with
  | queue waiting => queue (waiting ++ bytes)
  | terminal t => terminal (bytes.foldl Terminal.receive t)

def read (input : Input) (limit : Nat) : List UInt8 × Input :=
  match input with
  | queue waiting => (waiting.take limit, queue (waiting.drop limit))
  | terminal t =>
    let (front, t) := t.read limit
    (front, terminal t)

end Input

end ChipEight
