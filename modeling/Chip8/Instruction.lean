import Chip8.Fault
import Chip8.Opcode

/-!
The instruction set. An instruction carries the operands that its word names. A shift names two
registers like its neighbours, though it reads and writes only the first.
`ofOpcode?` classifies a word; it refuses exactly the comparisons of two registers whose last digit
is not zero, and every other word without a meaning is `unknown`.
-/

namespace Chip8

/-- What a word asks for. -/
inductive Instruction where
  | clear
  | ret
  | system (target : Target)
  | jump (target : Target)
  | call (target : Target)
  | skipIfByte (x : Register) (byte : Byte)
  | skipUnlessByte (x : Register) (byte : Byte)
  | skipIfSame (x y : Register)
  | loadByte (x : Register) (byte : Byte)
  | addByte (x : Register) (byte : Byte)
  | copy (x y : Register)
  | or (x y : Register)
  | and (x y : Register)
  | xor (x y : Register)
  | add (x y : Register)
  | subtract (x y : Register)
  | shiftRight (x y : Register)
  | subtractFrom (x y : Register)
  | shiftLeft (x y : Register)
  | skipUnlessSame (x y : Register)
  | loadIndex (target : Target)
  | jumpIndexed (target : Target)
  | random (x : Register) (mask : Byte)
  | draw (x y : Register) (rows : Fin 16)
  | skipIfKey (x : Register)
  | skipUnlessKey (x : Register)
  | readDelay (x : Register)
  | awaitKey (x : Register)
  | setDelay (x : Register)
  | setSound (x : Register)
  | addIndex (x : Register)
  | loadGlyph (x : Register)
  | storeDecimal (x : Register)
  | storeRegisters (x : Register)
  | loadRegisters (x : Register)
  | unknown (word : Int)
  deriving DecidableEq, Repr

namespace Instruction

/-- The instructions of family 0: clearing the screen and returning are single words, and every
other word of the family calls a routine of the host. -/
def ofHost (o : Opcode) : Instruction :=
  if o.word = 0xE0 then .clear
  else if o.word = 0xEE then .ret
  else .system o.nnn

/-- The instructions of family 8, told apart by the last digit. -/
def ofArithmetic (o : Opcode) : Instruction :=
  match o.n.val with
  | 0x0 => .copy o.x o.y
  | 0x1 => .or o.x o.y
  | 0x2 => .and o.x o.y
  | 0x3 => .xor o.x o.y
  | 0x4 => .add o.x o.y
  | 0x5 => .subtract o.x o.y
  | 0x6 => .shiftRight o.x o.y
  | 0x7 => .subtractFrom o.x o.y
  | 0xE => .shiftLeft o.x o.y
  | _ => .unknown o.word

/-- The instructions of family E, told apart by the low byte. -/
def ofKeyTest (o : Opcode) : Instruction :=
  match o.nn.toNat with
  | 0x9E => .skipIfKey o.x
  | 0xA1 => .skipUnlessKey o.x
  | _ => .unknown o.word

/-- The instructions of family F, told apart by the low byte. -/
def ofTransfer (o : Opcode) : Instruction :=
  match o.nn.toNat with
  | 0x07 => .readDelay o.x
  | 0x0A => .awaitKey o.x
  | 0x15 => .setDelay o.x
  | 0x18 => .setSound o.x
  | 0x1E => .addIndex o.x
  | 0x29 => .loadGlyph o.x
  | 0x33 => .storeDecimal o.x
  | 0x55 => .storeRegisters o.x
  | 0x65 => .loadRegisters o.x
  | _ => .unknown o.word

/-- The instruction that a word stands for, or nothing for a malformed word. -/
def ofOpcode? (o : Opcode) : Option Instruction :=
  match o.family.val with
  | 0x0 => some (ofHost o)
  | 0x1 => some (.jump o.nnn)
  | 0x2 => some (.call o.nnn)
  | 0x3 => some (.skipIfByte o.x o.nn)
  | 0x4 => some (.skipUnlessByte o.x o.nn)
  | 0x5 => if o.n = 0 then some (.skipIfSame o.x o.y) else none
  | 0x6 => some (.loadByte o.x o.nn)
  | 0x7 => some (.addByte o.x o.nn)
  | 0x8 => some (ofArithmetic o)
  | 0x9 => some (if o.n = 0 then .skipUnlessSame o.x o.y else .unknown o.word)
  | 0xA => some (.loadIndex o.nnn)
  | 0xB => some (.jumpIndexed o.nnn)
  | 0xC => some (.random o.x o.nn)
  | 0xD => some (.draw o.x o.y o.n)
  | 0xE => some (ofKeyTest o)
  | _ => some (ofTransfer o)

/-- The instruction of a word that stands at an address; a malformed word is a fault there. -/
def identify (word : Int) (address : Int) : Except Fault Instruction :=
  match ofOpcode? (.ofWord word) with
  | some instruction => .ok instruction
  | none => .error (.malformed word address)

end Instruction

end Chip8
