import Chip8.Execution
import Chip8.Proofs.Classification
import Chip8.Proofs.Readings

/-!
Assembler texts tell instructions apart. What is written for an instruction can be read back
(`Assembler.read?_text`), all but the second register of a shift, which the shift itself does not
read (`Machine.execute_of_alike`). Words have the same text only if they are the same word, or
shifts of the same register that differ in this digit, and then no machine can tell them apart
either (`texts_tell_words_apart`).
-/

namespace Chip8

/-! ### Operands -/

/-- One operand of an instruction, as its text is read. -/
inductive Operand where
  | register (r : Register)
  | number (n : Nat)
  | name (text : String)
  deriving DecidableEq

namespace Operand

/-- Reads an operand: a register, a hexadecimal number, a decimal number, or else a name. -/
def ofChars : List Char → Operand
  | ['V', digit] => .register (Fin.ofNat 16 (Numeral.digitValue digit))
  | '0' :: 'x' :: cs => .number (Numeral.value cs)
  | cs =>
      if cs.all Char.isDigit then .number (Nat.ofDigitChars 10 cs 0) else .name (String.ofList cs)

/-- Neither a blank nor a comma is in a text, so that they keep it apart from its neighbours. -/
def Plain (cs : List Char) : Prop :=
  ' ' ∉ cs ∧ ',' ∉ cs

instance (cs : List Char) : Decidable (Plain cs) :=
  inferInstanceAs (Decidable (_ ∧ _))

theorem Plain.append {cs ds : List Char} (first : Plain cs) (second : Plain ds) :
    Plain (cs ++ ds) := by
  simp only [Plain, List.mem_append, not_or]
  exact ⟨⟨first.1, second.1⟩, first.2, second.2⟩

theorem plain_hex (width n : Nat) : Plain (Numeral.hex width n).toList :=
  ⟨fun mem => absurd (Numeral.mem_hex mem) (by decide),
    fun mem => absurd (Numeral.mem_hex mem) (by decide)⟩

theorem plain_register (r : Register) : Plain (registerText r).toList := by
  rw [registerText, String.toList_append]
  exact .append (by decide) (plain_hex 1 r.val)

theorem plain_number (width n : Nat) : Plain ("0x" ++ Numeral.hex width n).toList := by
  rw [String.toList_append]
  exact .append (by decide) (plain_hex width n)

theorem plain_rows (rows : Fin 16) : Plain (toString rows.val).toList := by
  revert rows
  decide

theorem ofChars_register (r : Register) : ofChars (registerText r).toList = .register r := by
  revert r
  decide

theorem ofChars_number (width n : Nat) :
    ofChars ("0x" ++ Numeral.hex width n).toList = .number n := by
  simp [ofChars, Numeral.value_hex]

theorem ofChars_rows (rows : Fin 16) : ofChars (toString rows.val).toList = .number rows.val := by
  revert rows
  decide

end Operand

/-! ### What is not read -/

namespace Instruction

/-- An instruction with a zero for the second register of a shift. -/
def stripped : Instruction → Instruction
  | .shiftRight x _ => .shiftRight x 0
  | .shiftLeft x _ => .shiftLeft x 0
  | i => i

/-- Instructions are alike if they are the same, or shifts of the same register. -/
def Alike (i j : Instruction) : Prop :=
  i = j ∨ ∃ x y y', i = .shiftRight x y ∧ j = .shiftRight x y' ∨
    i = .shiftLeft x y ∧ j = .shiftLeft x y'

theorem stripped_cases (i : Instruction) :
    i.stripped = i ∨ ∃ x y, i = .shiftRight x y ∨ i = .shiftLeft x y := by
  cases i with
  | shiftRight x y => exact .inr ⟨x, y, .inl rfl⟩
  | shiftLeft x y => exact .inr ⟨x, y, .inr rfl⟩
  | _ => exact .inl rfl

/-- What is left of instructions is the same exactly if they are alike. -/
theorem stripped_eq_iff {i j : Instruction} : i.stripped = j.stripped ↔ i.Alike j := by
  constructor
  · intro same
    rcases i.stripped_cases with kept | ⟨x, y, rfl | rfl⟩
    · rw [kept] at same
      rcases j.stripped_cases with kept' | ⟨x, y, rfl | rfl⟩
      · exact .inl (same.trans kept')
      · exact .inr ⟨x, 0, y, .inl ⟨same, rfl⟩⟩
      · exact .inr ⟨x, 0, y, .inr ⟨same, rfl⟩⟩
    · rcases j.stripped_cases with kept' | ⟨x', y', rfl | rfl⟩
      · exact .inr ⟨x, y, 0, .inl ⟨rfl, (same.trans kept').symm⟩⟩
      · cases same
        exact .inr ⟨x, y, y', .inl ⟨rfl, rfl⟩⟩
      · cases same
    · rcases j.stripped_cases with kept' | ⟨x', y', rfl | rfl⟩
      · exact .inr ⟨x, y, 0, .inr ⟨rfl, (same.trans kept').symm⟩⟩
      · cases same
      · cases same
        exact .inr ⟨x, y, y', .inr ⟨rfl, rfl⟩⟩
  · rintro (rfl | ⟨x, y, y', ⟨rfl, rfl⟩ | ⟨rfl, rfl⟩⟩)
    · rfl
    · rfl
    · rfl

end Instruction

/-- A shift reads its first register only, so instructions that are alike do the same. -/
theorem Machine.execute_of_alike {i j : Instruction} (alike : i.Alike j) (m : Machine) :
    m.execute i = m.execute j := by
  rcases alike with rfl | ⟨x, y, y', ⟨rfl, rfl⟩ | ⟨rfl, rfl⟩⟩
  · rfl
  · rfl
  · rfl

namespace Assembler

open Operand

/-! ### The table of operations -/

/-- The operations without operands. -/
def bare : List (String × Instruction) :=
  [("CLS", .clear), ("RET", .ret)]

def onTarget : List (String × (Target → Instruction)) :=
  [("SYS", .system), ("JP", .jump), ("CALL", .call)]

/-- The operations on a register. The text of a shift says nothing of its second register. -/
def onRegister : List (String × (Register → Instruction)) :=
  [("SHR", (.shiftRight · 0)), ("SHL", (.shiftLeft · 0)), ("SKP", .skipIfKey),
    ("SKNP", .skipUnlessKey)]

def onByte : List (String × (Register → Byte → Instruction)) :=
  [("SE", .skipIfByte), ("SNE", .skipUnlessByte), ("LD", .loadByte), ("ADD", .addByte),
    ("RND", .random)]

def onRegisters : List (String × (Register → Register → Instruction)) :=
  [("SE", .skipIfSame), ("SNE", .skipUnlessSame), ("LD", .copy), ("OR", .or), ("AND", .and),
    ("XOR", .xor), ("ADD", .add), ("SUB", .subtract), ("SUBN", .subtractFrom)]

/-- The operations on a place that is no register, and a register. -/
def intoPlace : List ((String × String) × (Register → Instruction)) :=
  [(("LD", "DT"), .setDelay), (("LD", "ST"), .setSound), (("LD", "F"), .loadGlyph),
    (("LD", "B"), .storeDecimal), (("LD", "[I]"), .storeRegisters), (("ADD", "I"), .addIndex)]

/-- The places that are loaded into a register. -/
def fromPlace : List (String × (Register → Instruction)) :=
  [("DT", .readDelay), ("K", .awaitKey), ("[I]", .loadRegisters)]

/-- The instruction of an operation and its operands. A number alone is data if no operation on
addresses is named, and a number behind a register is an address if no operation on bytes is. -/
def build? (operation : String) : List Operand → Option Instruction
  | [] => bare.lookup operation
  | [.number n] => some (((onTarget.lookup operation).map (· (.ofNat 4096 n))).getD (.unknown n))
  | [.register x] => (onRegister.lookup operation).map (· x)
  | [.register x, .number n] =>
      some (((onByte.lookup operation).map (· x (.ofNat 8 n))).getD (.jumpIndexed (.ofNat 4096 n)))
  | [.register x, .register y] => (onRegisters.lookup operation).map (· x y)
  | [.name place, .register x] => (intoPlace.lookup (operation, place)).map (· x)
  | [.register x, .name place] => (fromPlace.lookup place).map (· x)
  | [.name _, .number n] => some (.loadIndex (.ofNat 4096 n))
  | [.register x, .register y, .number n] => some (.draw x y (.ofNat 16 n))
  | _ => none

/-- The words of an assembler text: the operation and its operands, between blanks. Commas are left
out. -/
def words (cs : List Char) : List (List Char) :=
  Text.pieces ' ' (cs.filter (· ≠ ','))

def read? (text : String) : Option Instruction :=
  match words text.toList with
  | operation :: operands => build? (String.ofList operation) (operands.map ofChars)
  | [] => none

/-! ### Words -/

variable {cs rest : List Char} {left right last : String}

theorem filter_of_plain (plain : Plain cs) : cs.filter (· ≠ ',') = cs :=
  List.filter_eq_self.mpr fun _ mem => decide_eq_true fun comma => plain.2 (comma ▸ mem)

theorem words_of_plain (plain : Plain cs) : words cs = [cs] := by
  rw [words, filter_of_plain plain, Text.pieces_of_plain plain.1]

theorem words_append (plain : Plain cs) : words (cs ++ ' ' :: rest) = cs :: words rest := by
  rw [words, List.filter_append, filter_of_plain plain, List.filter_cons_of_pos (by decide),
    Text.pieces_append plain.1, words]

theorem words_comma (plain : Plain cs) : words (cs ++ ',' :: ' ' :: rest) = cs :: words rest := by
  rw [← words_append plain]
  simp [words]

theorem read?_of_words {text operation : String} {operands : List (List Char)}
    (split : words text.toList = operation.toList :: operands) :
    read? text = build? operation (operands.map ofChars) := by
  simp only [read?, split, String.ofList_toList]

theorem read?_bare (operation : String) (plain : Plain operation.toList) :
    read? operation = build? operation [] :=
  read?_of_words (words_of_plain plain)

theorem read?_one (operation : String) (plain : Plain operation.toList)
    (first : Plain left.toList) :
    read? (operation ++ " " ++ left) = build? operation [ofChars left.toList] := by
  have split : words (operation ++ " " ++ left).toList = [operation.toList, left.toList] := by
    rw [← words_of_plain first, ← words_append plain]
    simp
  exact read?_of_words split

theorem read?_two (operation : String) (plain : Plain operation.toList)
    (first : Plain left.toList) (second : Plain right.toList) :
    read? (Instruction.binary operation left right) =
      build? operation [ofChars left.toList, ofChars right.toList] := by
  have split : words (Instruction.binary operation left right).toList =
      [operation.toList, left.toList, right.toList] := by
    rw [← words_of_plain second, ← words_comma first, ← words_append plain]
    simp [Instruction.binary]
  exact read?_of_words split

theorem read?_three (operation : String) (plain : Plain operation.toList)
    (first : Plain left.toList) (second : Plain right.toList) (third : Plain last.toList) :
    read? (Instruction.binary operation left right ++ ", " ++ last) =
      build? operation [ofChars left.toList, ofChars right.toList, ofChars last.toList] := by
  have split : words (Instruction.binary operation left right ++ ", " ++ last).toList =
      [operation.toList, left.toList, right.toList, last.toList] := by
    rw [← words_of_plain third, ← words_comma second, ← words_comma first, ← words_append plain]
    simp [Instruction.binary]
  exact read?_of_words split

/-! ### What is written can be read -/

theorem read?_number (operation : String) (plain : Plain operation.toList) (width n : Nat) :
    read? (operation ++ " " ++ ("0x" ++ Numeral.hex width n)) = build? operation [.number n] := by
  rw [read?_one operation plain (plain_number width n), ofChars_number]

theorem read?_target (operation : String) (plain : Plain operation.toList) (target : Target)
    {make : Target → Instruction} (known : onTarget.lookup operation = some make) :
    read? (operation ++ " " ++ targetText target) = some (make target) := by
  refine (read?_number operation plain 3 target.val).trans ?_
  rw [build?, known, Option.map_some, Option.getD_some, Fin.ofNat_val_eq_self]

theorem read?_register (operation : String) (plain : Plain operation.toList) (x : Register) :
    read? (operation ++ " " ++ registerText x) = (onRegister.lookup operation).map (· x) := by
  rw [read?_one operation plain (plain_register x), ofChars_register, build?]

theorem read?_byte (operation : String) (plain : Plain operation.toList) (x : Register)
    (byte : Byte) {make : Register → Byte → Instruction}
    (known : onByte.lookup operation = some make) :
    read? (Instruction.binary operation (registerText x) (byteText byte)) =
      some (make x byte) := by
  rw [byteText, read?_two operation plain (plain_register x) (plain_number 2 byte.toNat),
    ofChars_register, ofChars_number, build?, known, Option.map_some, Option.getD_some,
    BitVec.ofNat_toNat, BitVec.setWidth_eq]

theorem read?_registers (operation : String) (plain : Plain operation.toList) (x y : Register) :
    read? (Instruction.binary operation (registerText x) (registerText y)) =
      (onRegisters.lookup operation).map (· x y) := by
  rw [read?_two operation plain (plain_register x) (plain_register y), ofChars_register,
    ofChars_register, build?]

theorem read?_into (operation place : String) (plain : Plain operation.toList)
    (first : Plain place.toList) (named : ofChars place.toList = .name place) (x : Register) :
    read? (Instruction.binary operation place (registerText x)) =
      (intoPlace.lookup (operation, place)).map (· x) := by
  rw [read?_two operation plain first (plain_register x), ofChars_register, named, build?]

theorem read?_from (operation place : String) (plain : Plain operation.toList)
    (second : Plain place.toList) (named : ofChars place.toList = .name place) (x : Register) :
    read? (Instruction.binary operation (registerText x) place) =
      (fromPlace.lookup place).map (· x) := by
  rw [read?_two operation plain (plain_register x) second, ofChars_register, named, build?]

/-- What is written for an instruction is read as what is left of the instruction, as long as data
is no number below zero. -/
theorem read?_text (i : Instruction) (above : ∀ word, i = .unknown word → 0 ≤ word) :
    read? i.text = some i.stripped := by
  cases i with
  | clear => exact read?_bare "CLS" (by decide)
  | ret => exact read?_bare "RET" (by decide)
  | system target => exact read?_target "SYS" (by decide) target rfl
  | jump target => exact read?_target "JP" (by decide) target rfl
  | call target => exact read?_target "CALL" (by decide) target rfl
  | shiftRight x y => exact read?_register "SHR" (by decide) x
  | shiftLeft x y => exact read?_register "SHL" (by decide) x
  | skipIfKey x => exact read?_register "SKP" (by decide) x
  | skipUnlessKey x => exact read?_register "SKNP" (by decide) x
  | skipIfByte x byte | skipUnlessByte x byte | loadByte x byte | addByte x byte | random x byte =>
      exact read?_byte _ (by decide) x byte rfl
  | skipIfSame x y | skipUnlessSame x y | copy x y | or x y | and x y | xor x y | add x y
  | subtract x y | subtractFrom x y => exact read?_registers _ (by decide) x y
  | setDelay x | setSound x | loadGlyph x | storeDecimal x | storeRegisters x | addIndex x =>
      exact read?_into _ _ (by decide) (by decide) (by decide) x
  | readDelay x | awaitKey x | loadRegisters x =>
      exact read?_from _ _ (by decide) (by decide) (by decide) x
  | loadIndex target =>
      rw [Instruction.text, targetText,
        read?_two "LD" (by decide) (by decide) (plain_number 3 target.val), ofChars_number]
      exact congrArg (some ∘ Instruction.loadIndex) (Fin.ofNat_val_eq_self target)
  | jumpIndexed target =>
      rw [Instruction.text, targetText,
        read?_two "JP" (by decide) (by decide) (plain_number 3 target.val), ofChars_number]
      exact congrArg (some ∘ Instruction.jumpIndexed) (Fin.ofNat_val_eq_self target)
  | draw x y rows =>
      rw [Instruction.text, read?_three "DRW" (by decide) (plain_register x) (plain_register y)
        (plain_rows rows), ofChars_register, ofChars_register, ofChars_rows]
      exact congrArg (some ∘ Instruction.draw x y) (Fin.ofNat_val_eq_self rows)
  | unknown word =>
      obtain ⟨n, rfl⟩ := Int.eq_ofNat_of_zero_le (above word rfl)
      exact read?_number "DW" (by decide) 4 n

end Assembler

/-! ### Words of one instruction -/

/-- Two words for the same shift: they can only differ in the digit that a shift does not read. -/
def SameShift (w w' : Int) : Prop :=
  ∃ x y y' last : Fin 16, (last = 0x6 ∨ last = 0xE) ∧
    w = 0x8000 + 0x100 * x.val + 0x10 * y.val + last.val ∧
    w' = 0x8000 + 0x100 * x.val + 0x10 * y'.val + last.val

namespace Opcode

variable {w w' : Int}

/-- A word of sixteen bits is the number that its digits make. -/
theorem digits_of_inside (inside : 0 ≤ w ∧ w < 65536) :
    w = 4096 * (ofWord w).family.val + 256 * (ofWord w).x.val + 16 * (ofWord w).y.val +
      (ofWord w).n.val := by
  have digits := (ofWord_cuts w).digits
  omega

theorem word_eq_of_target (inside : 0 ≤ w ∧ w < 65536) (inside' : 0 ≤ w' ∧ w' < 65536)
    (family : (ofWord w).family = (ofWord w').family) (target : (ofWord w).nnn = (ofWord w').nnn) :
    w = w' := by
  have cuts := (ofWord_cuts w).target
  have cuts' := (ofWord_cuts w').target
  have digits := digits_of_inside inside
  have digits' := digits_of_inside inside'
  rw [target] at cuts
  rw [family] at digits
  omega

theorem word_eq_of_tail (inside : 0 ≤ w ∧ w < 65536) (inside' : 0 ≤ w' ∧ w' < 65536)
    (family : (ofWord w).family = (ofWord w').family) (x : (ofWord w).x = (ofWord w').x)
    (tail : (ofWord w).nn = (ofWord w').nn) : w = w' := by
  have cuts := (ofWord_cuts w).tail
  have cuts' := (ofWord_cuts w').tail
  have digits := digits_of_inside inside
  have digits' := digits_of_inside inside'
  rw [tail] at cuts
  rw [family, x] at digits
  omega

theorem word_eq_of_digits (inside : 0 ≤ w ∧ w < 65536) (inside' : 0 ≤ w' ∧ w' < 65536)
    (family : (ofWord w).family = (ofWord w').family) (x : (ofWord w).x = (ofWord w').x)
    (y : (ofWord w).y = (ofWord w').y) (n : (ofWord w).n = (ofWord w').n) : w = w' := by
  rw [digits_of_inside inside, digits_of_inside inside', family, x, y, n]

theorem sameShift_of_digits (inside : 0 ≤ w ∧ w < 65536) (inside' : 0 ≤ w' ∧ w' < 65536)
    {last : Fin 16} (shift : last = 0x6 ∨ last = 0xE) (family : (ofWord w).family = 0x8)
    (family' : (ofWord w').family = 0x8) (x : (ofWord w).x = (ofWord w').x)
    (n : (ofWord w).n = last) (n' : (ofWord w').n = last) : SameShift w w' := by
  have digits := digits_of_inside inside
  have digits' := digits_of_inside inside'
  rw [family, x, n] at digits
  rw [family', n'] at digits'
  exact ⟨(ofWord w').x, (ofWord w).y, (ofWord w').y, last, shift, digits, digits'⟩

/-- An instruction stands for one word: it holds all digits of its word that are not fixed. -/
theorem Means.word_eq {i : Instruction} (inside : 0 ≤ w ∧ w < 65536)
    (inside' : 0 ≤ w' ∧ w' < 65536) (means : (ofWord w).Means i) (means' : (ofWord w').Means i) :
    w = w' := by
  cases i with
  | clear | ret => exact means.2.trans means'.2.symm
  | unknown word => exact means.2.symm.trans means'.2
  | system target =>
      obtain ⟨family, -, -, rfl⟩ := means
      obtain ⟨family', -, -, target⟩ := means'
      exact word_eq_of_target inside inside' (family.trans family'.symm) target
  | jump target | call target | loadIndex target | jumpIndexed target =>
      obtain ⟨family, rfl⟩ := means
      obtain ⟨family', target⟩ := means'
      exact word_eq_of_target inside inside' (family.trans family'.symm) target
  | skipIfByte x byte | skipUnlessByte x byte | loadByte x byte | addByte x byte | random x byte =>
      obtain ⟨family, rfl, rfl⟩ := means
      obtain ⟨family', x, tail⟩ := means'
      exact word_eq_of_tail inside inside' (family.trans family'.symm) x tail
  | draw x y rows =>
      obtain ⟨family, rfl, rfl, rfl⟩ := means
      obtain ⟨family', x, y, n⟩ := means'
      exact word_eq_of_digits inside inside' (family.trans family'.symm) x y n
  | skipIfSame x y | skipUnlessSame x y | copy x y | or x y | and x y | xor x y | add x y
  | subtract x y | subtractFrom x y | shiftRight x y | shiftLeft x y =>
      obtain ⟨family, n, rfl, rfl⟩ := means
      obtain ⟨family', n', x, y⟩ := means'
      exact word_eq_of_digits inside inside' (family.trans family'.symm) x y (n.trans n'.symm)
  | _ =>
      obtain ⟨family, tail, rfl⟩ := means
      obtain ⟨family', tail', x⟩ := means'
      exact word_eq_of_tail inside inside' (family.trans family'.symm) x
        (tail.trans tail'.symm)

end Opcode

/-! ### Texts of words -/

namespace Instruction

/-- The instruction that a word is shown as. A malformed word is shown as data. -/
def shown (word : Int) : Instruction :=
  (ofOpcode? (.ofWord word)).getD (.unknown word)

theorem disassemble_eq_text (word : Int) : disassemble word = (shown word).text := by
  unfold disassemble shown
  cases ofOpcode? (.ofWord word) <;> rfl

theorem shown_of_known {word : Int} {i : Instruction} (known : ofOpcode? (.ofWord word) = some i) :
    shown word = i := by
  rw [shown, known, Option.getD_some]

theorem means_of_shown {word : Int} {i : Instruction} (same : shown word = i)
    (notData : ∀ data, i ≠ .unknown data) : (Opcode.ofWord word).Means i := by
  unfold shown at same
  cases known : ofOpcode? (.ofWord word) with
  | none =>
      rw [known] at same
      exact absurd same.symm (notData word)
  | some j =>
      rw [known] at same
      exact means_of_ofOpcode? (known.trans (congrArg some same))

/-- What is shown as data is the word itself. -/
theorem eq_of_shown_unknown {word data : Int} (same : shown word = .unknown data) :
    data = word := by
  unfold shown at same
  cases known : ofOpcode? (.ofWord word) with
  | none =>
      rw [known] at same
      exact (Instruction.unknown.inj same).symm
  | some i =>
      rw [known] at same
      rw [show i = .unknown data from same] at known
      exact (ofOpcode?_eq_some_iff.mp known).2

/-- Words that are no numbers below zero have the same text exactly if they are shown as
instructions that are alike. -/
theorem disassemble_eq_iff {w w' : Int} (above : 0 ≤ w) (above' : 0 ≤ w') :
    disassemble w = disassemble w' ↔ (shown w).Alike (shown w') := by
  rw [disassemble_eq_text, disassemble_eq_text, ← stripped_eq_iff]
  have read := Assembler.read?_text (shown w) fun _ data => eq_of_shown_unknown data ▸ above
  have read' := Assembler.read?_text (shown w') fun _ data => eq_of_shown_unknown data ▸ above'
  constructor
  · intro same
    rw [same, read'] at read
    exact (Option.some.inj read).symm
  · rw [stripped_eq_iff]
    rintro (same | ⟨x, y, y', ⟨first, second⟩ | ⟨first, second⟩⟩)
    · rw [same]
    · rw [first, second]
      rfl
    · rw [first, second]
      rfl

/-- A shift is the same but for the register that it does not read. -/
theorem ofOpcode?_shift {last : Fin 16} (shift : last = 0x6 ∨ last = 0xE) (x y : Fin 16) :
    ofOpcode? (.ofWord (0x8000 + 0x100 * x.val + 0x10 * y.val + last.val)) =
      some (if last = 0x6 then .shiftRight x y else .shiftLeft x y) := by
  have written : (0x8000 + 0x100 * x.val + 0x10 * y.val + last.val : Int) =
      0x1000 * (0x8 : Fin 16).val + 0x100 * x.val + 0x10 * y.val + last.val := rfl
  obtain ⟨family, first, second, n⟩ := Opcode.ofWord_digits 0x8 written
  rcases shift with rfl | rfl
  · exact ofOpcode?_of_means ⟨family, n, first.symm, second.symm⟩
  · exact ofOpcode?_of_means ⟨family, n, first.symm, second.symm⟩

end Instruction

variable {w w' : Int}

/-- Both words of a shift stand for it, with different registers that it does not read. -/
theorem SameShift.exists_shift (same : SameShift w w') :
    ∃ i j, Instruction.ofOpcode? (.ofWord w) = some i ∧
      Instruction.ofOpcode? (.ofWord w') = some j ∧ i.Alike j := by
  obtain ⟨x, y, y', last, shift, rfl, rfl⟩ := same
  refine ⟨_, _, Instruction.ofOpcode?_shift shift x y, Instruction.ofOpcode?_shift shift x y', ?_⟩
  by_cases right : last = 0x6
  · rw [if_pos right, if_pos right]
    exact .inr ⟨x, y, y', .inl ⟨rfl, rfl⟩⟩
  · rw [if_neg right, if_neg right]
    exact .inr ⟨x, y, y', .inr ⟨rfl, rfl⟩⟩

/-- A word is known by the instruction that it is shown as. -/
theorem eq_of_shown_eq (inside : 0 ≤ w ∧ w < 65536) (inside' : 0 ≤ w' ∧ w' < 65536)
    (same : Instruction.shown w = Instruction.shown w') : w = w' := by
  by_cases data : ∃ word, Instruction.shown w = .unknown word
  · obtain ⟨word, shown⟩ := data
    have first := Instruction.eq_of_shown_unknown shown
    have second := Instruction.eq_of_shown_unknown (same.symm.trans shown)
    exact first.symm.trans second
  · have notData := not_exists.mp data
    have means := Instruction.means_of_shown rfl notData
    exact means.word_eq inside inside' (Instruction.means_of_shown same.symm notData)

/-- Words are shown as instructions that are alike if they are the same or the same shift, and only
then. -/
theorem shown_alike_iff (inside : 0 ≤ w ∧ w < 65536) (inside' : 0 ≤ w' ∧ w' < 65536) :
    (Instruction.shown w).Alike (Instruction.shown w') ↔ w = w' ∨ SameShift w w' := by
  constructor
  · rintro (same | ⟨x, y, y', ⟨first, second⟩ | ⟨first, second⟩⟩)
    · exact .inl (eq_of_shown_eq inside inside' same)
    · obtain ⟨family, n, column, -⟩ := Instruction.means_of_shown first (by simp)
      obtain ⟨family', n', column', -⟩ := Instruction.means_of_shown second (by simp)
      exact .inr (Opcode.sameShift_of_digits inside inside' (.inl rfl) family family'
        (column.symm.trans column') n n')
    · obtain ⟨family, n, column, -⟩ := Instruction.means_of_shown first (by simp)
      obtain ⟨family', n', column', -⟩ := Instruction.means_of_shown second (by simp)
      exact .inr (Opcode.sameShift_of_digits inside inside' (.inr rfl) family family'
        (column.symm.trans column') n n')
  · rintro (rfl | shift)
    · exact .inl rfl
    · obtain ⟨i, j, known, known', alike⟩ := shift.exists_shift
      rwa [Instruction.shown_of_known known, Instruction.shown_of_known known']

/-- Assembler texts tell words apart as far as machines do. Two words have the same text exactly if
they are the same word, or words for the same shift of the same register. Whenever their texts are
the same, no machine can tell them apart, whatever keys are held: they are refused alike, or what is
carried out for them comes to the same end. -/
theorem texts_tell_words_apart (inside : 0 ≤ w ∧ w < 65536) (inside' : 0 ≤ w' ∧ w' < 65536) :
    (disassemble w = disassemble w' ↔ w = w' ∨ SameShift w w') ∧
      (disassemble w = disassemble w' → ∀ (m : Machine) (keys : Keypad) (address : Int),
        (Instruction.identify w address).map { m with keypad := keys }.execute =
          (Instruction.identify w' address).map { m with keypad := keys }.execute) := by
  have texts : disassemble w = disassemble w' ↔ w = w' ∨ SameShift w w' :=
    (Instruction.disassemble_eq_iff inside.1 inside'.1).trans (shown_alike_iff inside inside')
  refine ⟨texts, fun same m keys address => ?_⟩
  rcases texts.mp same with rfl | shift
  · rfl
  · obtain ⟨i, j, known, known', alike⟩ := shift.exists_shift
    rw [Instruction.identify_eq_ok_iff.mpr known, Instruction.identify_eq_ok_iff.mpr known']
    exact congrArg Except.ok (Machine.execute_of_alike alike _)

/-- Two words for one shift, which look alike and do the same. -/
theorem shifts_look_alike :
    ((0 : Int) ≤ 0x8126 ∧ (0x8126 : Int) < 65536) ∧ ((0 : Int) ≤ 0x81F6 ∧ (0x81F6 : Int) < 65536) ∧
      disassemble 0x8126 = disassemble 0x81F6 ∧
      ∀ (m : Machine) (keys : Keypad) (address : Int),
        (Instruction.identify 0x8126 address).map { m with keypad := keys }.execute =
          (Instruction.identify 0x81F6 address).map { m with keypad := keys }.execute := by
  have inside : (0 : Int) ≤ 0x8126 ∧ (0x8126 : Int) < 65536 := by decide
  have inside' : (0 : Int) ≤ 0x81F6 ∧ (0x81F6 : Int) < 65536 := by decide
  obtain ⟨texts, effects⟩ := texts_tell_words_apart inside inside'
  have shift : SameShift 0x8126 0x81F6 := ⟨1, 2, 15, 6, .inl rfl, rfl, rfl⟩
  have same := texts.mpr (.inr shift)
  exact ⟨inside, inside', same, effects same⟩

end Chip8
