import ChipEight.CommandLine.Refusal
import ChipEight.Text.Digit

/-!
Every argument is sorted by its form before any is acted on: a switch, with the text attached to it,
or an operand. So is everything behind the first `--`.
-/

namespace ChipEight

inductive Word where
  | operand (text : String)
  | separator
  | switch (s : Switch) (byLetter : Bool) (attached : Option (List Char))
  | unknown (text : String)
  deriving DecidableEq, Repr

namespace Word

def chomp (cs : List Char) : List Char :=
  if cs.getLast? = some '\n' then cs.dropLast else cs

def isDigits (cs : List Char) : Bool :=
  cs.all fun c => (Text.digitValue? c).isSome

/-- Whether the text behind a dash makes it a negative number: digits, or digits behind a point
that others may precede. One line break may end it. -/
def isNumeral (cs : List Char) : Bool :=
  let body := chomp cs
  match body.span (· ≠ '.') with
  | (whole, '.' :: fraction) => isDigits whole && isDigits fraction && fraction ≠ []
  | (whole, _) => isDigits whole && whole ≠ []

def cut (cs : List Char) : List Char × Option (List Char) :=
  match cs.span (· ≠ '=') with
  | (before, _ :: behind) => (before, some behind)
  | (before, []) => (before, none)

def spelled? (name : List Char) (attached : Option (List Char)) : Option Word :=
  match name with
  | ['-', c] => (Switch.ofLetter? c).map (switch · true attached)
  | _ => (Switch.all.find? fun s => s.long.toList = name).map (switch · false attached)

def unmatched (cs : List Char) : Word :=
  if isNumeral (cs.drop 1) ∨ ' ' ∈ cs then operand (String.ofList cs)
  else unknown (String.ofList cs)

/-- What an argument behind two dashes is that spells no switch out in full. -/
def shortened (cs : List Char) : Except Refusal Word :=
  let (name, attached) := cut cs
  match Switch.startingWith name with
  | [] => .ok (unmatched cs)
  | [s] => .ok (switch s false attached)
  | candidates => .error (.ambiguous (String.ofList cs) candidates)

def ofChars (cs : List Char) : Except Refusal Word :=
  match cs with
  | '-' :: c :: rest =>
    let (name, attached) := cut cs
    match spelled? cs none, (attached.bind fun a => spelled? name (some a)) with
    | some w, _ => .ok w
    | none, some w => .ok w
    | none, none =>
      if c = '-' then shortened cs
      else
        match Switch.ofLetter? c with
        | some s => .ok (switch s true (some rest))
        | none => .ok (unmatched cs)
  | _ => .ok (operand (String.ofList cs))

def ofArguments : List String → Except Refusal (List Word)
  | [] => .ok []
  | argument :: rest =>
    if argument = "--" then .ok (separator :: rest.map operand)
    else do
      let w ← ofChars argument.toList
      return w :: (← ofArguments rest)

end Word

end ChipEight
