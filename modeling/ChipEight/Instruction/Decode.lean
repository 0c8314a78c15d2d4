import ChipEight.Failure
import ChipEight.Instruction.Operation
import ChipEight.Registers

/-!
An instruction is a word of sixteen bits together with the operation it belongs to. `decode`
finds the operation in a table of masks and patterns; the operands are digits of the word.
-/

namespace ChipEight

structure Instruction where
  operation : Operation
  word : Nat
  deriving DecidableEq, Repr

namespace Instruction

theorem masked_shift (word k : Nat) : (word &&& 0xF <<< k) >>> k = word / 1 <<< k % 16 := by
  rw [Nat.shiftRight_and_distrib, Nat.shiftLeft_shiftRight, Nat.shiftRight_eq_div_pow,
    Nat.one_shiftLeft]
  exact Nat.and_two_pow_sub_one_eq_mod _ 4

theorem masked_shift_lt (word k : Nat) : (word &&& 0xF <<< k) >>> k < registerCount := by
  rw [masked_shift]
  exact Nat.mod_lt _ (by decide)

def x (i : Instruction) : Register :=
  ⟨(i.word &&& 0x0F00) >>> 8, masked_shift_lt i.word 8⟩

def y (i : Instruction) : Register :=
  ⟨(i.word &&& 0x00F0) >>> 4, masked_shift_lt i.word 4⟩

def n (i : Instruction) : Nat :=
  i.word &&& 0x000F

def kk (i : Instruction) : Nat :=
  i.word &&& 0x00FF

def nnn (i : Instruction) : Nat :=
  i.word &&& 0x0FFF

theorem x_eq (i : Instruction) : i.x = ⟨i.word / 256 % 16, Nat.mod_lt _ (by decide)⟩ :=
  Fin.ext (masked_shift i.word 8)

theorem y_eq (i : Instruction) : i.y = ⟨i.word / 16 % 16, Nat.mod_lt _ (by decide)⟩ :=
  Fin.ext (masked_shift i.word 4)

theorem n_eq (i : Instruction) : i.n = i.word % 16 :=
  Nat.and_two_pow_sub_one_eq_mod _ 4

theorem kk_eq (i : Instruction) : i.kk = i.word % 256 :=
  Nat.and_two_pow_sub_one_eq_mod _ 8

theorem nnn_eq (i : Instruction) : i.nnn = i.word % 4096 :=
  Nat.and_two_pow_sub_one_eq_mod _ 12

def wordOf (opcode : Int) : Nat :=
  (opcode % 0x10000).toNat

def digits (opcode : Int) : List Nat :=
  let word := wordOf opcode
  [(word &&& 0xF000) >>> 12, (word &&& 0x0F00) >>> 8, (word &&& 0x00F0) >>> 4, word &&& 0x000F]

theorem digits_eq (opcode : Int) :
    digits opcode =
      [wordOf opcode / 4096, wordOf opcode / 256 % 16, wordOf opcode / 16 % 16,
        wordOf opcode % 16] := by
  have small : wordOf opcode < 65536 := by
    unfold wordOf
    omega
  have top : wordOf opcode / 4096 < 16 := by omega
  have first : (wordOf opcode &&& 0xF000) >>> 12 = wordOf opcode / 4096 :=
    (masked_shift _ 12).trans (Nat.mod_eq_of_lt top)
  have second : (wordOf opcode &&& 0x0F00) >>> 8 = wordOf opcode / 256 % 16 := masked_shift _ 8
  have third : (wordOf opcode &&& 0x00F0) >>> 4 = wordOf opcode / 16 % 16 := masked_shift _ 4
  have last : wordOf opcode &&& 0x000F = wordOf opcode % 16 := Nat.and_two_pow_sub_one_eq_mod _ 4
  rw [digits, first, second, third, last]

structure Row where
  mask : Nat
  pattern : Nat
  operation : Operation
  deriving DecidableEq, Repr

def table : List Row := [
  ⟨0xFFFF, 0x00E0, .clear⟩,
  ⟨0xFFFF, 0x00EE, .ret⟩,
  ⟨0xF000, 0x1000, .jump⟩,
  ⟨0xF000, 0x2000, .call⟩,
  ⟨0xF000, 0x3000, .skipEqualByte⟩,
  ⟨0xF000, 0x4000, .skipUnequalByte⟩,
  ⟨0xF00F, 0x5000, .skipEqual⟩,
  ⟨0xF000, 0x6000, .setByte⟩,
  ⟨0xF000, 0x7000, .addByte⟩,
  ⟨0xF00F, 0x8000, .copy⟩,
  ⟨0xF00F, 0x8001, .or⟩,
  ⟨0xF00F, 0x8002, .and⟩,
  ⟨0xF00F, 0x8003, .xor⟩,
  ⟨0xF00F, 0x8004, .add⟩,
  ⟨0xF00F, 0x8005, .subtract⟩,
  ⟨0xF00F, 0x8006, .shiftRight⟩,
  ⟨0xF00F, 0x8007, .subtractFrom⟩,
  ⟨0xF00F, 0x800E, .shiftLeft⟩,
  ⟨0xF00F, 0x9000, .skipUnequal⟩,
  ⟨0xF000, 0xA000, .setIndex⟩,
  ⟨0xF000, 0xB000, .jumpPlus⟩,
  ⟨0xF000, 0xC000, .random⟩,
  ⟨0xF000, 0xD000, .draw⟩,
  ⟨0xF0FF, 0xE09E, .skipPressed⟩,
  ⟨0xF0FF, 0xE0A1, .skipReleased⟩,
  ⟨0xF0FF, 0xF007, .getDelay⟩,
  ⟨0xF0FF, 0xF00A, .awaitKey⟩,
  ⟨0xF0FF, 0xF015, .setDelay⟩,
  ⟨0xF0FF, 0xF018, .setSound⟩,
  ⟨0xF0FF, 0xF01E, .addIndex⟩,
  ⟨0xF0FF, 0xF029, .glyph⟩,
  ⟨0xF0FF, 0xF033, .decimal⟩,
  ⟨0xF0FF, 0xF055, .store⟩,
  ⟨0xF0FF, 0xF065, .load⟩]

def decode (opcode : Int) : Except Failure Instruction :=
  let word := wordOf opcode
  match table.find? fun row => word &&& row.mask == row.pattern with
  | some row => .ok ⟨row.operation, word⟩
  | none => .error (.unknownOpcode word)

end Instruction

end ChipEight
