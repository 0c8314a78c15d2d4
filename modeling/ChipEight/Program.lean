import ChipEight.CommandLine.Usage
import ChipEight.Rom
import ChipEight.Terminal.Front
import ChipEight.Window.Front

/-!
From a command line to an exit status: the options, then the settings that they ask for, then the
program file, and only then a session, whose front end is left again however it ends.
-/

namespace ChipEight

inductive Obstacle where
  | commandLine (stop : Stop)
  | settings (failure : Failure)
  | rom (failure : Failure)
  | breakdown (failure : Failure)

namespace Obstacle

def status : Obstacle → Nat
  | commandLine stop => stop.status
  | settings _ => 2
  | rom _ | breakdown _ => 1

def output : Obstacle → String
  | commandLine stop => stop.output
  | _ => ""

def errors : Obstacle → String
  | commandLine stop => stop.errors
  | settings failure => "Invalid configuration: " ++ failure.message ++ "\n"
  | rom failure | breakdown failure => failure.message ++ "\n"

end Obstacle

namespace RunEnd

def status : RunEnd → Nat
  | cancelled => 0
  | fault _ | broken _ => 1
  | interrupted => 130
  | unfinished => 1

def errors : RunEnd → String
  | fault stop => "Emulation error: " ++ stop.message ++ "\n"
  | broken failure => failure.message ++ "\n"
  | _ => ""

end RunEnd

namespace Options

def implementationValue (o : Options) : Value :=
  match o.implementation with
  | some i => .text i.name
  | none => .list []

def numberValue : Option Int → Value
  | some n => .whole n
  | none => .list []

/-- What the options ask for. None of them sets the idle sleep, and the default one is not
negative. -/
def settings (o : Options) : Except Obstacle Settings :=
  let proposal : Proposal :=
    { implementation := o.implementationValue
      cyclesPerSecond := numberValue o.cyclesPerSecond
      frameRate := numberValue o.frameRate }
  proposal.paced.mapError fun failure =>
    if failure.refusesSettings then .settings failure else .breakdown failure

end Options

structure Prepared where
  options : Options
  settings : Settings
  machine : Machine

structure Surroundings where
  read : String → Except FileProblem (List UInt8)
  random : Supply UInt8 := .cycle 0 []
  timeline : Timeline := {}
  input : Input := .queue []
  typed : Nat → List UInt8 := fun _ => []
  happenings : Nat → List Happening := fun _ => []
  buzzer : Buzzer := {}

structure Outcome where
  status : Nat
  output : String := ""
  errors : String := ""
  sleeps : Nat := 0
  calls : List DeviceCall := []
  input : Input := .queue []

namespace Program

def load (w : Surroundings) (settings : Settings) (path : String) : Except Failure Machine := do
  let program ← Rom.ofFile path (w.read path)
  match Machine.loadRom program (Machine.new settings w.random) with
  | .ok _ m => return m
  | .error failure _ => throw failure

def loadNotes (w : Surroundings) (path : String) : List Note :=
  Machine.newNotes ++ Rom.notes path ++
    match Rom.ofFile path (w.read path) with
    | .ok program => [.romStored program.length]
    | .error _ => []

def prepare (w : Surroundings) (arguments : List String) :
    Journal × Except Obstacle Prepared :=
  match Options.ofArguments arguments with
  | .error stop => ({}, .error (.commandLine stop))
  | .ok options =>
    let journal := ({} : Journal).switch options.log
    match options.settings with
    | .error obstacle => (journal, .error obstacle)
    | .ok settings =>
      let journal := journal.record (loadNotes w options.rom)
      match load w settings options.rom with
      | .error .nulInPath => (journal, .error (.breakdown .nulInPath))
      | .error failure => (journal, .error (.rom failure))
      | .ok machine => (journal, .ok ⟨options, settings, machine⟩)

def terminalSession (w : Surroundings) (p : Prepared) (journal : Journal) :
    Session TerminalFront :=
  let front : TerminalFront :=
    { timeline := w.timeline, input := w.input, typed := w.typed }
  Session.new p.machine p.settings front.enter journal

def windowSession (w : Surroundings) (p : Prepared) (scale : Nat) (journal : Journal) :
    Session WindowFront :=
  let window : Window := { scale, showsSpeeds := p.options.stats }
  let front : WindowFront :=
    { timeline := w.timeline, window, buzzer := w.buzzer, happenings := w.happenings }
  Session.new p.machine p.settings front.enter journal

def runTerminal (w : Surroundings) (patience limit : Nat) (p : Prepared) (journal : Journal) :
    Except Failure Outcome :=
  let (ending, s) := (terminalSession w p journal).run TerminalFront.host patience limit
  let front := s.outside.leave
  match ending with
  | .broken failure => .error failure
  | ending =>
    .ok {
      status := ending.status
      output := front.output
      errors := s.journal.text ++ ending.errors
      sleeps := front.timeline.sleeps
      input := front.input }

def runWindow (w : Surroundings) (patience limit : Nat) (p : Prepared) (journal : Journal) :
    Except Failure Outcome := do
  let scale ← Window.scaleOf (Options.numberValue p.options.scale)
  let (ending, s) := (windowSession w p scale journal).run WindowFront.host patience limit
  let front := s.outside.leave
  match ending with
  | .broken failure => throw failure
  | ending =>
    return {
      status := ending.status
      errors := s.journal.text ++ ending.errors
      sleeps := front.timeline.sleeps
      calls := front.calls.toList
      input := w.input }

/-- Runs the program: at most `limit` rounds, with `patience` for bursts that do not end. A
breakdown leaves nothing but its failure. -/
def run (w : Surroundings) (patience limit : Nat) (arguments : List String) :
    Except Failure Outcome :=
  match prepare w arguments with
  | (_, .error (.breakdown failure)) => .error failure
  | (journal, .error obstacle) =>
    .ok {
      status := obstacle.status
      output := obstacle.output
      errors := journal.text ++ obstacle.errors
      input := w.input }
  | (journal, .ok p) =>
    if p.options.terminal then runTerminal w patience limit p journal
    else runWindow w patience limit p journal

end Program

end ChipEight
