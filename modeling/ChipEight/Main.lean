import ChipEight.Program

/-!
Runs the program with the real clock, files and terminal. There is no device for a window, so only
sessions in the terminal can be shown.
-/

namespace ChipEight

namespace Program

def problem : IO.Error → FileProblem
  | .noFileOrDirectory .. => .missing
  | .permissionDenied _ _ details => .other details
  | .inappropriateType _ _ details => .other details
  | .invalidArgument _ _ details => .other details
  | failure => .other (toString failure)

def readFile (path : String) : IO (Except FileProblem (List UInt8)) := do
  try
    let content ← IO.FS.readBinFile path
    return .ok content.toList
  catch failure => return .error (problem failure)

def seed : IO UInt64 := do
  let bytes ← IO.getRandomBytes 8
  return bytes.toList.foldl (fun n b => n * 256 + b.toUInt64) 0

def awaitTyping : IO (Task (Except IO.Error ByteArray)) := do
  IO.asTask ((← IO.getStdin).read (USize.ofNat Keyboard.readLimit)) .dedicated

def typedBytes : Except IO.Error ByteArray → List UInt8
  | .ok bytes => bytes.toList
  | .error _ => []

def emit (s : Session TerminalFront) : IO (Session TerminalFront) := do
  IO.print s.outside.output
  (← IO.getStdout).flush
  IO.eprint s.journal.text
  return { s with journal := s.journal.flush, outside := { s.outside with written := #[] } }

def atPresent (s : Session TerminalFront) : IO (Session TerminalFront) := do
  let timeline := { s.outside.timeline with time := .whole (← IO.monoNanosNow), stride := .whole 0 }
  return { s with outside := { s.outside with timeline } }

partial def play (s : Session TerminalFront) (typing : Task (Except IO.Error ByteArray)) :
    IO RunEnd := do
  let s ← atPresent s
  let ready ← IO.hasFinished typing
  let typed := if ready then typedBytes typing.get else []
  let s := { s with outside := { s.outside with input := s.outside.input.send typed } }
  let patience := s.settings.cyclesPerSecond.perSecond.truncate.toNat + 1
  let (ending, s) := s.round TerminalFront.host patience
  let s ← emit s
  match ending with
  | some ending => return ending
  | none =>
    IO.sleep (s.settings.idleSleep.toFloat * 1000).toUInt32
    let typing ← if ready ∧ typed ≠ [] then awaitTyping else pure typing
    play s typing

def playTerminal (w : Surroundings) (p : Prepared) (journal : Journal) : IO UInt32 := do
  let s ← atPresent (terminalSession w p journal)
  let s ← emit (s.opened TerminalFront.host)
  let ending ← play s (← awaitTyping)
  IO.eprint ending.errors
  return UInt32.ofNat ending.status

end Program

end ChipEight

open ChipEight in
def main (arguments : List String) : IO UInt32 := do
  let content ← match Options.ofArguments arguments with
    | .ok options => Program.readFile options.rom
    | .error _ => pure (.ok [])
  let w : Surroundings := { read := fun _ => content, random := .ofSeed (← Program.seed) }
  match Program.prepare w arguments with
  | (journal, .error obstacle) =>
    IO.eprint journal.text
    IO.print obstacle.output
    IO.eprint obstacle.errors
    return UInt32.ofNat obstacle.status
  | (journal, .ok p) =>
    if p.options.terminal then Program.playTerminal w p journal
    else
      IO.eprint (journal.text ++ "There is no window to draw in; run with --terminal.\n")
      return 1
