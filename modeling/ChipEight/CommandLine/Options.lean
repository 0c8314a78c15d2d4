import ChipEight.CommandLine.Word
import ChipEight.Text.Integer

/-!
What a command line asks for. The words are taken from the left; those without a meaning are
collected, and refused at the end.
-/

namespace ChipEight

/-- What the program is asked to do. An option that was given `--` for its value has none. -/
structure Options where
  rom : String
  implementation : Option Implementation := some .cosmacVip
  cyclesPerSecond : Option Int := some defaultCyclesPerSecond
  frameRate : Option Int := some defaultFrameRate
  scale : Option Int := some defaultScale
  terminal : Bool := false
  stats : Bool := false
  log : Bool := false
  deriving DecidableEq, Repr

inductive Stop where
  | help
  | refused (why : Refusal)
  deriving DecidableEq, Repr

inductive Order where
  | turnOn (s : Switch)
  | assign (s : Switch) (value : String)
  deriving DecidableEq, Repr

structure Cluster where
  orders : List Order := []
  awaiting : Option Switch := none
  deriving DecidableEq, Repr

namespace Cluster

def bare (s : Switch) : Cluster :=
  if s.takesValue then { awaiting := some s } else { orders := [.turnOn s] }

def precede (s : Switch) (c : Cluster) : Cluster :=
  { c with orders := .turnOn s :: c.orders }

/-- A switch by its letter, with the text attached to it. Behind a switch that takes no value the
text has to begin with the letter of another one. -/
def ofLetters (s : Switch) (text : List Char) : Except Refusal Cluster :=
  if s.takesValue then .ok { orders := [.assign s (String.ofList text)] }
  else
    match text with
    | [] => .error (.valueUnused s "")
    | c :: rest =>
      match Switch.ofLetter? c with
      | none => .error (.valueUnused s (String.ofList (c :: rest)))
      | some next =>
        let behind : Except Refusal Cluster :=
          match rest with
          | [] => .ok (bare next)
          | letters => ofLetters next letters
        behind.map (precede s)

def ofLong (s : Switch) (text : List Char) : Except Refusal Cluster :=
  if s.takesValue then .ok { orders := [.assign s (String.ofList text)] }
  else .error (.valueUnused s (String.ofList text))

end Cluster

structure Draft where
  options : Options := { rom := "" }
  hasRom : Bool := false
  unused : List String := []

namespace Draft

def withRom (d : Draft) (rom : String) : Draft :=
  { d with options := { d.options with rom }, hasRom := true }

def leave (d : Draft) (words : List String) : Draft :=
  { d with unused := d.unused ++ words }

def assign (d : Draft) (s : Switch) (value : Option String) : Except Refusal Draft := do
  let number (value : String) : Except Refusal Int :=
    match Text.integer? value with
    | some n => .ok n
    | none => .error (.notInteger s value)
  let choice (value : String) : Except Refusal Implementation :=
    match Implementation.ofName? value with
    | some implementation => .ok implementation
    | none => .error (.notImplementation s value)
  match s with
  | .implementation =>
    return { d with options := { d.options with implementation := ← value.mapM choice } }
  | .cyclesPerSecond =>
    return { d with options := { d.options with cyclesPerSecond := ← value.mapM number } }
  | .frameRate => return { d with options := { d.options with frameRate := ← value.mapM number } }
  | .scale => return { d with options := { d.options with scale := ← value.mapM number } }
  | _ => return d

def follow (d : Draft) : Order → Except Stop Draft
  | .turnOn .help => .error .help
  | .turnOn .terminal => .ok { d with options := { d.options with terminal := true } }
  | .turnOn .stats => .ok { d with options := { d.options with stats := true } }
  | .turnOn .log => .ok { d with options := { d.options with log := true } }
  | .turnOn _ => .ok d
  | .assign s value =>
    (d.assign s (if value = "--" then none else some value)).mapError .refused

def followAll (d : Draft) (c : Cluster) : Except Stop Draft :=
  c.orders.foldlM follow d

def cluster (s : Switch) (byLetter : Bool) : Option (List Char) → Except Stop Cluster
  | none => .ok (.bare s)
  | some text =>
    (if byLetter then Cluster.ofLetters s text else Cluster.ofLong s text).mapError .refused

/-- Reads the words from the left. The separator next to the program goes with it. -/
def readWords (d : Draft) : List Word → Except Stop Draft
  | [] => .ok d
  | .operand text :: .separator :: words =>
    if d.hasRom then readWords (d.leave [text, "--"]) words else readWords (d.withRom text) words
  | .operand text :: words =>
    if d.hasRom then readWords (d.leave [text]) words else readWords (d.withRom text) words
  | .separator :: .operand text :: words =>
    if d.hasRom then readWords (d.leave ["--", text]) words else readWords (d.withRom text) words
  | .separator :: words => readWords (d.leave ["--"]) words
  | .unknown text :: words => readWords (d.leave [text]) words
  | .switch s byLetter attached :: words => do
    let c ← cluster s byLetter attached
    match c.awaiting with
    | none => readWords (← d.followAll c) words
    | some last =>
      match words with
      | .operand value :: words =>
        readWords (← d.followAll { c with orders := c.orders ++ [.assign last value] }) words
      | _ => .error (.refused (.valueMissing last))

def finish (d : Draft) : Except Stop Options :=
  if ¬ d.hasRom then .error (.refused .romMissing)
  else if d.unused ≠ [] then .error (.refused (.unrecognised d.unused))
  else .ok d.options

end Draft

def Options.ofArguments (arguments : List String) : Except Stop Options := do
  let words ← (Word.ofArguments arguments).mapError .refused
  let draft ← ({} : Draft).readWords words
  draft.finish

end ChipEight
