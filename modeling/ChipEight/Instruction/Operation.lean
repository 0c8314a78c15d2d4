/-!
The thirty-four operations of the machine, their names and the shape of their words: four
hexadecimal digits, each either fixed or part of an operand.
-/

namespace ChipEight

inductive Operation where
  | clear
  | ret
  | jump
  | call
  | skipEqualByte
  | skipUnequalByte
  | skipEqual
  | setByte
  | addByte
  | copy
  | or
  | and
  | xor
  | add
  | subtract
  | shiftRight
  | subtractFrom
  | shiftLeft
  | skipUnequal
  | setIndex
  | jumpPlus
  | random
  | draw
  | skipPressed
  | skipReleased
  | getDelay
  | awaitKey
  | setDelay
  | setSound
  | addIndex
  | glyph
  | decimal
  | store
  | load
  deriving DecidableEq, Repr

inductive FormDigit where
  | fixed (d : Fin 16)
  | x
  | y
  | n
  | k
  deriving DecidableEq, Repr

namespace FormDigit

def char : FormDigit → Char
  | fixed d => (Nat.digitChar d).toUpper
  | x => 'x'
  | y => 'y'
  | n => 'n'
  | k => 'k'

def Allows : FormDigit → Nat → Prop
  | fixed e, d => d = e
  | _, _ => True

instance : (f : FormDigit) → (d : Nat) → Decidable (f.Allows d)
  | fixed e, d => inferInstanceAs (Decidable (d = e))
  | x, _ | y, _ | n, _ | k, _ => inferInstanceAs (Decidable True)

end FormDigit

namespace Operation

def all : List Operation := [
  clear, ret, jump, call, skipEqualByte, skipUnequalByte, skipEqual, setByte, addByte,
  copy, or, and, xor, add, subtract, shiftRight, subtractFrom, shiftLeft,
  skipUnequal, setIndex, jumpPlus, random, draw, skipPressed, skipReleased,
  getDelay, awaitKey, setDelay, setSound, addIndex, glyph, decimal, store, load]

def name : Operation → String
  | clear => "CLS"
  | ret => "RET"
  | jump => "JP"
  | call => "CALL"
  | skipEqualByte => "SE_VX_KK"
  | skipUnequalByte => "SNE_VX_KK"
  | skipEqual => "SE_VX_VY"
  | setByte => "LD_VX_KK"
  | addByte => "ADD_VX_KK"
  | copy => "LD_VX_VY"
  | or => "OR"
  | and => "AND"
  | xor => "XOR"
  | add => "ADD"
  | subtract => "SUB"
  | shiftRight => "SHR"
  | subtractFrom => "SUBN"
  | shiftLeft => "SHL"
  | skipUnequal => "SNE_VX_VY"
  | setIndex => "LD_I"
  | jumpPlus => "JP_V0"
  | random => "RND"
  | draw => "DRW"
  | skipPressed => "SKP"
  | skipReleased => "SKNP"
  | getDelay => "LD_VX_DT"
  | awaitKey => "WAITKEY"
  | setDelay => "LD_DT_VX"
  | setSound => "LD_ST_VX"
  | addIndex => "ADD_I_VX"
  | glyph => "FONT"
  | decimal => "BCD"
  | store => "STORE"
  | load => "LOAD"

open FormDigit in
def form : Operation → List FormDigit
  | clear => [fixed 0, fixed 0, fixed 0xE, fixed 0]
  | ret => [fixed 0, fixed 0, fixed 0xE, fixed 0xE]
  | jump => [fixed 1, n, n, n]
  | call => [fixed 2, n, n, n]
  | skipEqualByte => [fixed 3, x, k, k]
  | skipUnequalByte => [fixed 4, x, k, k]
  | skipEqual => [fixed 5, x, y, fixed 0]
  | setByte => [fixed 6, x, k, k]
  | addByte => [fixed 7, x, k, k]
  | copy => [fixed 8, x, y, fixed 0]
  | or => [fixed 8, x, y, fixed 1]
  | and => [fixed 8, x, y, fixed 2]
  | xor => [fixed 8, x, y, fixed 3]
  | add => [fixed 8, x, y, fixed 4]
  | subtract => [fixed 8, x, y, fixed 5]
  | shiftRight => [fixed 8, x, y, fixed 6]
  | subtractFrom => [fixed 8, x, y, fixed 7]
  | shiftLeft => [fixed 8, x, y, fixed 0xE]
  | skipUnequal => [fixed 9, x, y, fixed 0]
  | setIndex => [fixed 0xA, n, n, n]
  | jumpPlus => [fixed 0xB, n, n, n]
  | random => [fixed 0xC, x, k, k]
  | draw => [fixed 0xD, x, y, n]
  | skipPressed => [fixed 0xE, x, fixed 9, fixed 0xE]
  | skipReleased => [fixed 0xE, x, fixed 0xA, fixed 1]
  | getDelay => [fixed 0xF, x, fixed 0, fixed 7]
  | awaitKey => [fixed 0xF, x, fixed 0, fixed 0xA]
  | setDelay => [fixed 0xF, x, fixed 1, fixed 5]
  | setSound => [fixed 0xF, x, fixed 1, fixed 8]
  | addIndex => [fixed 0xF, x, fixed 1, fixed 0xE]
  | glyph => [fixed 0xF, x, fixed 2, fixed 9]
  | decimal => [fixed 0xF, x, fixed 3, fixed 3]
  | store => [fixed 0xF, x, fixed 5, fixed 5]
  | load => [fixed 0xF, x, fixed 6, fixed 5]

def formText (o : Operation) : String :=
  String.ofList (o.form.map FormDigit.char)

end Operation

end ChipEight
