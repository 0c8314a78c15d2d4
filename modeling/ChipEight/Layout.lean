/-! The fixed sizes and addresses of memory, registers, keys, stack and picture. -/

namespace ChipEight

abbrev memorySize : Nat := 4096

abbrev fontStart : Nat := 0x050

abbrev romStart : Nat := 0x200

abbrev maxRomSize : Nat := memorySize - romStart

abbrev stackDepth : Nat := 16

abbrev registerCount : Nat := 16

abbrev keyCount : Nat := 16

abbrev screenWidth : Nat := 64

abbrev screenHeight : Nat := 32

def defaultScale : Nat := 10

def defaultCyclesPerSecond : Nat := 700

def defaultFrameRate : Nat := 60

abbrev glyphSize : Nat := 5

def wrapAddress (n : Int) : Nat :=
  (n % memorySize).toNat

theorem wrapAddress_lt (n : Int) : wrapAddress n < memorySize := by
  unfold wrapAddress memorySize
  omega

theorem wrapAddress_natCast {n : Nat} (h : n < memorySize) : wrapAddress n = n := by
  unfold memorySize at h
  unfold wrapAddress memorySize
  omega

def wrapByte (n : Int) : Nat :=
  (n % 256).toNat

theorem wrapByte_le (n : Int) : wrapByte n ≤ 255 := by
  unfold wrapByte
  omega

theorem wrapByte_natCast {n : Nat} (h : n ≤ 255) : wrapByte n = n := by
  unfold wrapByte
  omega

def lowByte (n : Int) : UInt8 :=
  UInt8.ofNat (n % 256).toNat

theorem toNat_lowByte (n : Int) : (lowByte n).toNat = (n % 256).toNat := by
  rw [lowByte, UInt8.toNat_ofNat']
  omega

def font : List UInt8 := [
  0xF0, 0x90, 0x90, 0x90, 0xF0,
  0x20, 0x60, 0x20, 0x20, 0x70,
  0xF0, 0x10, 0xF0, 0x80, 0xF0,
  0xF0, 0x10, 0xF0, 0x10, 0xF0,
  0x90, 0x90, 0xF0, 0x10, 0x10,
  0xF0, 0x80, 0xF0, 0x10, 0xF0,
  0xF0, 0x80, 0xF0, 0x90, 0xF0,
  0xF0, 0x10, 0x20, 0x40, 0x40,
  0xF0, 0x90, 0xF0, 0x90, 0xF0,
  0xF0, 0x90, 0xF0, 0x10, 0xF0,
  0xF0, 0x90, 0xF0, 0x90, 0x90,
  0xE0, 0x90, 0xE0, 0x90, 0xE0,
  0xF0, 0x80, 0x80, 0x80, 0xF0,
  0xE0, 0x90, 0x90, 0x90, 0xE0,
  0xF0, 0x80, 0xF0, 0x80, 0xF0,
  0xF0, 0x80, 0xF0, 0x80, 0x80]

end ChipEight
