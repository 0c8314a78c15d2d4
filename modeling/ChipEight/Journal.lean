import ChipEight.Fault
import ChipEight.Registers
import ChipEight.Settings
import ChipEight.Text.Lines

/-!
What the program notes about itself while it runs. A note is made where something happens, and
`Note.text` words it; the journal keeps the lines while it is switched on.
-/

namespace ChipEight

inductive Note where
  | fontStored (size : Nat)
  | romStored (size : Nat)
  | displayCleared
  | returned (address : Nat)
  | jumped (address : Nat)
  | called (address : Nat)
  | byteSet (x : Register) (value : Nat)
  | byteAdded (x : Register) (value sum : Nat)
  | registersAdded (x y : Register) (sum carry : Nat)
  | indexSet (address : Nat)
  | jumpedPlus (x : Register) (address target : Nat)
  | spriteDrawn (x y collision : Nat)
  | keyTaken (key : Nat) (x : Register)
  | stepFailed (fault : Fault)
  | paceSet (settings : Settings)
  | stopped (cycles : Nat) (fault : Fault)
  | cancelled
  | romLoading (path : String)
  | escapePressed
  | windowClosed

private def registerName (x : Register) : String :=
  "V" ++ Hex.upper x

def Note.text : Note → String
  | fontStored size => "Font stored at 0x" ++ Hex.padded 3 fontStart ++ sized size
  | romStored size => "ROM stored at 0x" ++ Hex.padded 3 romStart ++ sized size
  | displayCleared => "Clear the display (all pixels turned off)"
  | returned address => "Return to 0x" ++ Hex.lower address
  | jumped address => "Jump to address 0x" ++ Hex.lower address
  | called address => "Call subroutine at 0x" ++ Hex.lower address
  | byteSet x value => "Set " ++ registerName x ++ " = " ++ toString value
  | byteAdded x value sum =>
    "Add " ++ toString value ++ " to " ++ registerName x ++ ": " ++ toString sum
  | registersAdded x y sum carry =>
    "Add " ++ registerName y ++ " to " ++ registerName x ++ ": result " ++ toString sum
      ++ ", carry=" ++ toString carry
  | indexSet address => "Set I = " ++ Hex.padded 3 address
  | jumpedPlus x address target =>
    "Jump to address " ++ registerName x ++ " + " ++ Hex.padded 3 address ++ " = "
      ++ Hex.padded 3 target
  | spriteDrawn x y collision =>
    "Drew sprite at (" ++ toString x ++ ", " ++ toString y ++ "), collision="
      ++ toString collision
  | keyTaken key x => "Key " ++ Hex.upper key ++ " -> " ++ registerName x
  | stepFailed fault => "Emulation error: " ++ fault.message
  | paceSet settings =>
    "Scheduler: " ++ settings.cyclesPerSecond.text ++ " cycles/s, " ++ settings.frameRate.text
      ++ " frames/s, " ++ settings.implementation.name ++ " quirks"
  | stopped cycles fault =>
    "Stopped after " ++ toString cycles ++ " cycles: " ++ fault.message
  | cancelled => "Scheduler cancelled"
  | romLoading path => "Loading ROM: " ++ path
  | escapePressed => "Escape pressed, exiting"
  | windowClosed => "Window closed"
where
  sized (size : Nat) : String := " (" ++ toString size ++ " bytes)"

structure Journal where
  enabled : Bool := false
  lines : Array String := #[]

namespace Journal

def record (j : Journal) (notes : List Note) : Journal :=
  if j.enabled then { j with lines := notes.foldl (fun ls n => ls.push n.text) j.lines } else j

def switch (j : Journal) (on : Bool) : Journal :=
  { j with enabled := on }

def toggle (j : Journal) : Journal :=
  let on := !j.enabled
  { enabled := on, lines := j.lines.push ("logsOn: " ++ (Value.bool on).literal) }

def text (j : Journal) : String :=
  String.join (j.lines.toList.map (· ++ "\n"))

/-- The lines printed. A note that names a path has as many as the path breaks it into. -/
def printed (j : Journal) : List String :=
  Text.lines j.text

def flush (j : Journal) : Journal :=
  { j with lines := #[] }

end Journal

end ChipEight
