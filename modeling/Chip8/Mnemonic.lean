import Chip8.Instruction

/-!
Assembler text. `Instruction.text` writes an instruction with its operands; `disassemble` writes a
word, and shows a word that is no instruction, malformed ones included, as plain data.
-/

namespace Chip8

def registerText (r : Register) : String :=
  "V" ++ Numeral.hex 1 r.val

def byteText (b : Byte) : String :=
  "0x" ++ Numeral.hex 2 b.toNat

def targetText (t : Target) : String :=
  "0x" ++ Numeral.hex 3 t.val

/-- A word that is no instruction as assembler text. -/
def dataText (word : Int) : String :=
  "DW 0x" ++ Numeral.hex 4 word

namespace Instruction

/-- Two operands behind an operation. -/
def binary (operation left right : String) : String :=
  operation ++ " " ++ left ++ ", " ++ right

def text : Instruction → String
  | .clear => "CLS"
  | .ret => "RET"
  | .system target => "SYS " ++ targetText target
  | .jump target => "JP " ++ targetText target
  | .call target => "CALL " ++ targetText target
  | .skipIfByte x byte => binary "SE" (registerText x) (byteText byte)
  | .skipUnlessByte x byte => binary "SNE" (registerText x) (byteText byte)
  | .skipIfSame x y => binary "SE" (registerText x) (registerText y)
  | .loadByte x byte => binary "LD" (registerText x) (byteText byte)
  | .addByte x byte => binary "ADD" (registerText x) (byteText byte)
  | .copy x y => binary "LD" (registerText x) (registerText y)
  | .or x y => binary "OR" (registerText x) (registerText y)
  | .and x y => binary "AND" (registerText x) (registerText y)
  | .xor x y => binary "XOR" (registerText x) (registerText y)
  | .add x y => binary "ADD" (registerText x) (registerText y)
  | .subtract x y => binary "SUB" (registerText x) (registerText y)
  | .shiftRight x _ => "SHR " ++ registerText x
  | .subtractFrom x y => binary "SUBN" (registerText x) (registerText y)
  | .shiftLeft x _ => "SHL " ++ registerText x
  | .skipUnlessSame x y => binary "SNE" (registerText x) (registerText y)
  | .loadIndex target => binary "LD" "I" (targetText target)
  | .jumpIndexed target => binary "JP" "V0" (targetText target)
  | .random x mask => binary "RND" (registerText x) (byteText mask)
  | .draw x y rows =>
      binary "DRW" (registerText x) (registerText y) ++ ", " ++ toString rows.val
  | .skipIfKey x => "SKP " ++ registerText x
  | .skipUnlessKey x => "SKNP " ++ registerText x
  | .readDelay x => binary "LD" (registerText x) "DT"
  | .awaitKey x => binary "LD" (registerText x) "K"
  | .setDelay x => binary "LD" "DT" (registerText x)
  | .setSound x => binary "LD" "ST" (registerText x)
  | .addIndex x => binary "ADD" "I" (registerText x)
  | .loadGlyph x => binary "LD" "F" (registerText x)
  | .storeDecimal x => binary "LD" "B" (registerText x)
  | .storeRegisters x => binary "LD" "[I]" (registerText x)
  | .loadRegisters x => binary "LD" (registerText x) "[I]"
  | .unknown word => dataText word

end Instruction

/-- The assembler text of a word. -/
def disassemble (word : Int) : String :=
  match Instruction.ofOpcode? (.ofWord word) with
  | some instruction => instruction.text
  | none => dataText word

end Chip8
