import Chip8.Memory

/-!
Instruction words and their fields. A word is any integer; only its low sixteen bits are cut into
fields, so a field depends on the word modulo 65536 alone.
-/

namespace Chip8

/-- Numbers can be written for digits, and so for the registers that they name. -/
instance digits_exist : @NeZero Nat Zero.ofOfNat0 16 := ⟨by decide⟩

/-- The name of a register. -/
abbrev Register := Fin 16

/-- An address inside an instruction: twelve bits. -/
abbrev Target := Fin 4096

/-- A word together with its fields: four digits from high to low, and the tails that instructions
read as one operand. -/
structure Opcode where
  word : Int
  family : Fin 16
  x : Register
  y : Register
  n : Fin 16
  nn : Byte
  nnn : Target
  deriving DecidableEq, Repr

namespace Opcode

/-- The hexadecimal digit of a number that stands at the given weight. -/
def digit (weight : Int) (word : Int) : Fin 16 :=
  ⟨(word / weight % 16).toNat, by omega⟩

/-- Cuts a word into its fields. -/
def ofWord (word : Int) : Opcode where
  word := word
  family := digit 4096 word
  x := digit 256 word
  y := digit 16 word
  n := digit 1 word
  nn := BitVec.ofInt 8 word
  nnn := Memory.cell word

end Opcode

end Chip8
