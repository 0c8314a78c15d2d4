import ChipEight.Value
import ChipEight.Window.Image

/-! What a window and its buzzer ask of the devices they run on, as plain data. -/

namespace ChipEight

inductive DeviceCall where
  | openWindow (width height : Nat) (caption : Value)
  | makeLabel (text : String) (height : Int)
  | switchTo
  | clear
  | blit (image : Image)
  | drawLabel (text : String)
  | flip
  | dispatchEvents
  | closeWindow
  /-- Makes a tone whose length in seconds is the double of some bits. -/
  | makeTone (seconds : UInt64) (pitch : Number)
  | queueTone
  | play
  | deletePlayer
  deriving BEq

namespace DeviceCall

def sampleRate : Nat := 44100

def sampleSize : Nat := 2

def labelSize : Nat := 12

def labelLeft : Nat := 5

end DeviceCall

end ChipEight
