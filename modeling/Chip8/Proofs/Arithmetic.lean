import Chip8.Proofs.Stepping

/-!
What the arithmetic words compute: the additions of a byte, and the words of family 8 that stand for
an operation. `Computed` says it of numbers (`Computed.ofDigit?`) and once more of vectors of eight
bits, with the carry or the bit that falls out for a flag (`Computed.ofBytes?`); on bytes the two
are the same (`Computed.ofBytes?_eq_ofDigit?`). The step at such a word reads both operands first,
then writes the result and last the flag, whichever of the registers are the same
(`Machine.arithmetic_is_bytewise`).
-/

namespace Chip8

/-- What an arithmetic word computes: a number for its first register, and for some words a number
for the flag register. -/
inductive Computed where
  | plain (number : Int)
  | flagged (number flag : Int)
  deriving DecidableEq, Repr

namespace Computed

/-- What the words 8XYN compute, told apart by their last digit, when VX holds `a` and VY holds
`b`. -/
def ofDigit? (a b : Int) (digit : Fin 16) : Option Computed :=
  match digit.val with
  | 0x0 => some (.plain b)
  | 0x1 => some (.plain (a.toNat ||| b.toNat : Nat))
  | 0x2 => some (.plain (a.toNat &&& b.toNat : Nat))
  | 0x3 => some (.plain (a.toNat ^^^ b.toNat : Nat))
  | 0x4 => some (.flagged ((a + b) % 256) (if 255 < a + b then 1 else 0))
  | 0x5 => some (.flagged ((a - b) % 256) (if b ≤ a then 1 else 0))
  | 0x6 => some (.flagged (a / 2) (a % 2))
  | 0x7 => some (.flagged ((b - a) % 256) (if a ≤ b then 1 else 0))
  | 0xE => some (.flagged (2 * a % 256) (a / 128))
  | _ => none

def ofByte (byte : Byte) : Computed :=
  .plain byte.toNat

def ofBits (byte : Byte) (bit : Bool) : Computed :=
  .flagged byte.toNat (flagNumber bit)

/-- The same words as operations on vectors of eight bits. The flag of a sum is the carry out of the
highest bit. A difference is the sum with the complement and a carry into the lowest bit, and its
carry out tells that nothing was borrowed. The flag of a shift is the bit that falls out. -/
def ofBytes? (a b : Byte) (digit : Fin 16) : Option Computed :=
  match digit.val with
  | 0x0 => some (.ofByte b)
  | 0x1 => some (.ofByte (a ||| b))
  | 0x2 => some (.ofByte (a &&& b))
  | 0x3 => some (.ofByte (a ^^^ b))
  | 0x4 => some (.ofBits (a + b) (BitVec.carry 8 a b false))
  | 0x5 => some (.ofBits (a - b) (BitVec.carry 8 a (~~~b) true))
  | 0x6 => some (.ofBits (a >>> 1) (a.getLsbD 0))
  | 0x7 => some (.ofBits (b - a) (BitVec.carry 8 b (~~~a) true))
  | 0xE => some (.ofBits (a <<< 1) (a.getLsbD 7))
  | _ => none

/-- A machine whose registers hold what was computed. The flag comes last, so the flag register
holds it even when the number was meant for that register. -/
def writtenTo (m : Machine) (x : Register) : Computed → Machine
  | .plain number => m.putRegister x number
  | .flagged number flag => (m.putRegister x number).putRegister 0xF flag

/-! ### Numbers and vectors of bits -/

theorem carry_add (a b : Byte) :
    flagNumber (BitVec.carry 8 a b false) = if 255 < (a.toNat + b.toNat : Int) then 1 else 0 := by
  have carries : BitVec.carry 8 a b false = decide (255 < (a.toNat + b.toNat : Int)) := by
    have ha := a.isLt
    have hb := b.isLt
    simp only [BitVec.carry, Bool.toNat_false, decide_eq_decide]
    omega
  simp [carries, flagNumber]

/-- Nothing is borrowed where the carry runs out of the sum with the complement. -/
theorem carry_complement (a b : Byte) :
    flagNumber (BitVec.carry 8 a (~~~b) true) = if (b.toNat : Int) ≤ a.toNat then 1 else 0 := by
  rw [← BitVec.ule_eq_carry, BitVec.ule]
  simp [flagNumber]

theorem toNat_difference (a b : Byte) : ((a - b).toNat : Int) = (a.toNat - b.toNat) % 256 := by
  have hb := b.isLt
  rw [BitVec.toNat_sub]
  omega

/-- The number of one bit of a byte. -/
theorem flagNumber_getLsbD (a : Byte) (k : Nat) :
    flagNumber (a.getLsbD k) = ((a.toNat >>> k % 2 : Nat) : Int) := by
  rw [BitVec.getLsbD, Nat.testBit_eq_decide_div_mod_eq, Nat.shiftRight_eq_div_pow, flagNumber]
  rcases Nat.mod_two_eq_zero_or_one (a.toNat / 2 ^ k) with even | odd
  · simp [even]
  · simp [odd]

/-- On bytes the two tables say the same. -/
theorem ofBytes?_eq_ofDigit? (a b : Byte) (digit : Fin 16) :
    ofBytes? a b digit = ofDigit? a.toNat b.toNat digit := by
  have ha := a.isLt
  unfold ofDigit? ofBytes?
  split
  case h_5 => rw [ofBits, carry_add, BitVec.toNat_add]; rfl
  case h_6 | h_8 => rw [ofBits, carry_complement, toNat_difference]
  case h_7 =>
    rw [ofBits, flagNumber_getLsbD, BitVec.toNat_ushiftRight, Nat.shiftRight_eq_div_pow]
    simp
  case h_9 =>
    have one : a.toNat >>> 7 % 2 = a.toNat / 128 := by omega
    rw [ofBits, flagNumber_getLsbD, BitVec.toNat_shiftLeft, Nat.shiftLeft_eq, one]
    simp [Nat.mul_comm]
  all_goals rfl

end Computed

namespace Machine

variable {m : Machine} {o : Opcode} {x y : Register}

/-! ### What arithmetic words write -/

/-- The low bits of a register that holds a byte are all of it. -/
theorem HoldsBytes.toNat_lowByte (bytes : m.HoldsBytes) (r : Register) :
    (lowByte (m.registers.get r)).toNat = (m.registers.get r).toNat := by
  have same := Machine.toNat_lowByte (bytes r)
  omega

/-- A number of eight bits is written as it is. -/
theorem setRegister_of_byte (m : Machine) (x : Register) {value : Int}
    (low : 0 ≤ value) (high : value < 256) : m.setRegister x value = m.putRegister x value := by
  rw [setRegister, Int.emod_eq_of_lt low high]

/-- A combination of two bytes is written as it is. -/
theorem setCombined_eq (m : Machine) (x : Register) (combine : Byte → Byte → Byte) (a b : Int) :
    m.setCombined x combine a b =
      m.putRegister x ((combine (lowByte a) (lowByte b)).toNat : Int) := by
  have small := (combine (lowByte a) (lowByte b)).isLt
  exact m.setRegister_of_byte x (by omega) (by omega)

/-- A result is written modulo 256 and its flag behind it. -/
theorem setFlagged_eq (m : Machine) (x : Register) (value : Int) (flag : Bool) :
    m.setFlagged x value flag =
      (Computed.flagged (value % 256) (flagNumber flag)).writtenTo m x := by
  cases flag <;> rfl

theorem flagNumber_decide (p : Prop) [Decidable p] :
    flagNumber (decide p) = if p then 1 else 0 := by
  simp [flagNumber]

/-- A number that is a bit is the number of the flag that asks for it. -/
theorem flagNumber_bit {bit : Int} (range : bit = 0 ∨ bit = 1) : flagNumber (bit == 1) = bit := by
  rcases range with rfl | rfl <;> rfl

/-- The words of family 8 that compute write what the table has for them. -/
theorem execute_ofArithmetic (bytes : m.HoldsBytes) {c : Computed}
    (computes : Computed.ofDigit? (m.registers.get o.x) (m.registers.get o.y) o.n = some c) :
    m.execute (Instruction.ofArithmetic o) = .ok (c.writtenTo m.next o.x) := by
  obtain ⟨lowA, highA⟩ := bytes o.x
  obtain ⟨lowB, highB⟩ := bytes o.y
  have a := bytes.toNat_lowByte o.x
  have b := bytes.toNat_lowByte o.y
  -- One case for each entry of the table, in its order, and one for the words without an entry.
  unfold Computed.ofDigit? at computes
  split at computes
  case h_10 => cases computes
  all_goals
    rename_i digit
    cases computes
    simp only [Instruction.ofArithmetic, digit]
    refine congrArg Except.ok ?_
  case h_1 => exact m.next.setRegister_of_byte o.x lowB (by omega)
  case h_2 | h_3 | h_4 =>
    rw [setCombined_eq, ← a, ← b]
    rfl
  case h_5 | h_6 | h_8 => rw [setFlagged_eq, flagNumber_decide]
  case h_7 =>
    rw [setFlagged_eq, flagNumber_bit (by omega), Int.emod_eq_of_lt (by omega) (by omega)]
  case h_9 =>
    have bit : m.registers.get o.x / 128 % 2 = m.registers.get o.x / 128 := by omega
    rw [setFlagged_eq, flagNumber_bit (by omega), bit]

/-- Every word of family 8 stands for an instruction. -/
theorem ofOpcode?_of_arithmetic (family : o.family = 0x8) :
    Instruction.ofOpcode? o = some (Instruction.ofArithmetic o) := by
  simp only [Instruction.ofOpcode?, family]
  rfl

/-- A byte added modulo 256 is a byte added as a vector of bits. -/
theorem addByte_computes (bytes : m.HoldsBytes) (x : Register) (byte : Byte) :
    Computed.plain ((m.registers.get x + byte.toNat) % 256) =
      .ofByte (lowByte (m.registers.get x) + byte) := by
  have a := bytes.toNat_lowByte x
  obtain ⟨low, high⟩ := bytes x
  rw [Computed.ofByte, BitVec.toNat_add, a]
  congr 1
  omega

/-- The table has an entry for every word of family 8 that computes, and on registers that hold
bytes it is the one of the vectors of bits. -/
theorem exists_computed (bytes : m.HoldsBytes) (x y : Register) {digit : Fin 16}
    (known : digit ∈ [0x0, 0x1, 0x2, 0x3, 0x4, 0x5, 0x6, 0x7, 0xE]) :
    ∃ c, Computed.ofDigit? (m.registers.get x) (m.registers.get y) digit = some c ∧
      Computed.ofBytes? (lowByte (m.registers.get x)) (lowByte (m.registers.get y)) digit =
        some c := by
  have entry : ∃ c, Computed.ofDigit? (m.registers.get x) (m.registers.get y) digit = some c := by
    simp only [List.mem_cons, List.not_mem_nil, or_false] at known
    rcases known with rfl | rfl | rfl | rfl | rfl | rfl | rfl | rfl | rfl
    all_goals exact ⟨_, rfl⟩
  obtain ⟨c, entry⟩ := entry
  refine ⟨c, entry, ?_⟩
  rw [Computed.ofBytes?_eq_ofDigit?, bytes.toNat_lowByte, bytes.toNat_lowByte,
    Int.toNat_of_nonneg (bytes x).1, Int.toNat_of_nonneg (bytes y).1]
  exact entry

/-- The flag register holds the flag. -/
theorem get_writtenTo_flagged (m : Machine) (x : Register) (number flag : Int) :
    ((Computed.flagged number flag).writtenTo m x).registers.get 0xF = flag :=
  Vector.getElem_set_self _

/-- Arithmetic is that of bytes. At a word 7XNN or at one of the words 8XYN that compute, the step
of a well-formed machine moves behind the word and writes what the tables have for the registers as
they were before it; nothing else changes. The number goes to VX and then the flag, if there is one,
to VF, so that VF holds the flag even if X is F. The table of numbers and the table of vectors of
bits have the same entry. -/
theorem arithmetic_is_bytewise (wf : m.WellFormed) (inside : m.AtWord) (x : Register) :
    (∀ byte : Byte, m.word = 0x7000 + 0x100 * x.val + byte.toNat →
      ∃ c, c = Computed.plain ((m.registers.get x + byte.toNat) % 256) ∧
        c = .ofByte (lowByte (m.registers.get x) + byte) ∧
        ∃ i, m.step.value = .ok (i, c.writtenTo m.next x)) ∧
    ∀ (y : Register) (digit : Fin 16),
      digit ∈ [0x0, 0x1, 0x2, 0x3, 0x4, 0x5, 0x6, 0x7, 0xE] →
      m.word = 0x8000 + 0x100 * x.val + 0x10 * y.val + digit.val →
      ∃ c, Computed.ofDigit? (m.registers.get x) (m.registers.get y) digit = some c ∧
        Computed.ofBytes? (lowByte (m.registers.get x)) (lowByte (m.registers.get y)) digit =
          some c ∧
        (∃ i, m.step.value = .ok (i, c.writtenTo m.next x)) ∧
        ∀ number flag, c = .flagged number flag →
          (c.writtenTo m.next x).registers.get 0xF = flag := by
  constructor
  · intro byte written
    obtain ⟨family, first, tail⟩ := Opcode.ofWord_tail 0x7 written
    have known : Instruction.identify m.word m.pc = .ok (.addByte x byte) :=
      Instruction.identify_eq_ok_iff_means.mpr ⟨family, first.symm, tail.symm⟩
    exact ⟨_, rfl, addByte_computes wf.bytes x byte, _, step_of_done inside known rfl⟩
  · intro y digit computes written
    obtain ⟨family, first, second, last⟩ := Opcode.ofWord_digits 0x8 written
    obtain ⟨c, number, vector⟩ := exists_computed wf.bytes x y computes
    have known : Instruction.identify m.word m.pc = .ok (Instruction.ofArithmetic _) :=
      Instruction.identify_eq_ok_iff.mpr (ofOpcode?_of_arithmetic family)
    have entry := number
    rw [← first, ← second, ← last] at entry
    have done := execute_ofArithmetic wf.bytes entry
    rw [first] at done
    refine ⟨c, number, vector, ⟨_, step_of_done inside known done⟩, ?_⟩
    rintro number flag rfl
    exact get_writtenTo_flagged m.next x _ _

def carrying : Machine :=
  { fresh {} .silent with
    memory := initialMemory.store origin [0x8F, 0xF4]
    registers := Vector.ofFn fun r => if r = 15 then 200 else r.val }

theorem carrying_holds_carry :
    carrying.WellFormed ∧ carrying.AtWord ∧ carrying.word = 0x8FF4 ∧
      ∃ i after, carrying.step.value = .ok (i, after) ∧ after.registers.get 0xF = 1 := by
  have wf : carrying.WellFormed := ⟨by unfold HoldsBytes; decide, by decide⟩
  have inside : carrying.AtWord := by decide
  have word : carrying.word = 0x8FF4 := by decide +kernel
  obtain ⟨-, computes⟩ := arithmetic_is_bytewise wf inside 15
  obtain ⟨c, entry, -, ⟨i, step⟩, flag⟩ := computes 15 4 (by simp) word
  have same : Computed.ofDigit? 200 200 4 = some (.flagged 144 1) := rfl
  exact ⟨wf, inside, word, i, _, step, flag 144 1 (Option.some.inj (entry.symm.trans same))⟩

end Machine

end Chip8
