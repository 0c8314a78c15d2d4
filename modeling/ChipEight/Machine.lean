import ChipEight.Countdown
import ChipEight.Framebuffer
import ChipEight.HexPad
import ChipEight.Journal
import ChipEight.Memory
import ChipEight.Registers
import ChipEight.Settings
import ChipEight.Supply

/-!
All of a machine's state in one value. The random bytes still to come are part of it, so that what a
machine does is a function of the machine alone.
-/

namespace ChipEight

structure Machine where
  settings : Settings := {}
  memory : Memory := Memory.zeroed memorySize
  registers : Registers := {}
  stack : CallStack := {}
  timers : Countdown := {}
  screen : Framebuffer screenWidth screenHeight := {}
  pad : HexPad := {}
  /-- The program loaded last, which a reset puts back. -/
  rom : Option (List UInt8) := none
  /-- Why the machine stopped. It stays stopped until a reset. -/
  fault : Option Fault := none
  awaitingKey : Bool := false
  cycles : Nat := 0
  random : Supply UInt8 := .cycle 0 []

namespace Machine

def onMemory {α : Type} : Attempt Memory α → Attempt Machine α :=
  .within memory fun m memory => { m with memory }

def onStack {α : Type} : Attempt CallStack α → Attempt Machine α :=
  .within stack fun m stack => { m with stack }

def onScreen {α : Type} : Attempt (Framebuffer screenWidth screenHeight) α → Attempt Machine α :=
  .within screen fun m screen => { m with screen }

def new (settings : Settings := {}) (random : Supply UInt8 := .cycle 0 []) : Machine :=
  { settings, random, memory := (Memory.zeroed memorySize).splice fontStart font }

def newNotes : List Note := [.fontStored font.length]

def configure (m : Machine) (settings : Settings) : Machine :=
  { m with settings }

def loadFont (data : List Value) : Attempt Machine Unit :=
  onMemory (Memory.storeFont data)

def loadRom (program : List UInt8) : Attempt Machine Unit := do
  onMemory (Memory.storeRom program)
  modify fun m => { m with rom := some program }

def wiped (m : Machine) : Machine :=
  { settings := m.settings, random := m.random, rom := m.rom, memory := m.memory.reset }

def reset : Attempt Machine Unit := do
  modify wiped
  loadFont (font.map fun b => .whole b.toNat)
  match (← get).rom with
  | some program => onMemory (Memory.storeRom program)
  | none => return ()

def resetNotes (m : Machine) : List Note :=
  newNotes ++ (m.rom.map fun program => Note.romStored program.length).toList

end Machine

end ChipEight
