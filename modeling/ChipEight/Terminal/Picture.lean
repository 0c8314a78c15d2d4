import ChipEight.Framebuffer

/-! The picture as text: one character for a pixel and one line for a row. -/

namespace ChipEight

namespace Picture

def onGlyph : Char := '█'

def offGlyph : Char := '·'

def home : String := "\x1b[H"

def blank : String := "\x1b[2J"

def lineEnd : String := "\r\n"

def line (row : List UInt8) : String :=
  String.ofList (row.map fun cell => if cell ≠ 0 then onGlyph else offGlyph)

def frame {width height : Nat} (f : Framebuffer width height) : String :=
  lineEnd.intercalate (f.rows.map line)

def wipe : String := blank ++ home

def present {width height : Nat} (f : Framebuffer width height) :
    String × Framebuffer width height :=
  if f.dirty then (home ++ frame f ++ lineEnd, { f with dirty := false }) else ("", f)

end Picture

end ChipEight
