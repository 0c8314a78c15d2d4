import ChipEight.Settings

/-! The switches of the command line, by word and by letter. -/

namespace ChipEight

inductive Switch where
  | help
  | implementation
  | cyclesPerSecond
  | frameRate
  | scale
  | terminal
  | stats
  | log
  deriving DecidableEq, Repr

namespace Switch

def all : List Switch :=
  [help, implementation, cyclesPerSecond, frameRate, scale, terminal, stats, log]

def letter? : Switch → Option Char
  | help => some 'h'
  | implementation => some 'i'
  | terminal => some 't'
  | _ => none

def word : Switch → String
  | help => "help"
  | implementation => "implementation"
  | cyclesPerSecond => "cps"
  | frameRate => "fps"
  | scale => "scale"
  | terminal => "terminal"
  | stats => "stats"
  | log => "log"

def takesValue : Switch → Bool
  | implementation | cyclesPerSecond | frameRate | scale => true
  | help | terminal | stats | log => false

def long (s : Switch) : String :=
  "--" ++ s.word

def short? (s : Switch) : Option String :=
  s.letter?.map fun c => "-" ++ c.toString

def label (s : Switch) : String :=
  "/".intercalate (s.short?.toList ++ [s.long])

def ofLetter? (c : Char) : Option Switch :=
  all.find? (·.letter? = some c)

def startingWith (cs : List Char) : List Switch :=
  all.filter fun s => cs.isPrefixOf s.long.toList

end Switch

end ChipEight
