import Mathlib.Data.Int.Bitwise
import Chip8.Proofs.Decoding

/-!
From words to instructions, over all integers. The fields of a word are what masks cut out of its
two's complement (`Opcode.digit_eq_mask`), and also its digits and tails as remainders, whatever its
sign and size (`Opcode.ofWord_cuts`). Every word is either malformed or stands for exactly one
instruction of the opcode table (`Opcode.existsUnique_means_iff`), and the decoder gives the one or
the other (`Instruction.every_word_is_classified`).
-/

namespace Chip8

/-! ### Masks -/

/-- A mask of low bits keeps the remainder by a power of two, below zero as well. -/
theorem land_lowBits (word : Int) (count : Nat) :
    Int.land word (2 ^ count - 1 : Nat) = word % 2 ^ count := by
  cases word with
  | ofNat n =>
      change ((n &&& (2 ^ count - 1) : Nat) : Int) = (n : Int) % 2 ^ count
      rw [Nat.and_two_pow_sub_one_eq_mod]
      norm_cast
  | negSucc n =>
      have below : n % 2 ^ count < 2 ^ count := Nat.mod_lt n (Nat.two_pow_pos count)
      have complement : (2 ^ count - 1).ldiff n = 2 ^ count - (n % 2 ^ count + 1) := by
        refine Nat.eq_of_testBit_eq fun i => ?_
        rw [Nat.testBit_ldiff, Nat.testBit_two_pow_sub_one, Nat.testBit_two_pow_sub_succ below,
          Nat.testBit_mod_two_pow]
        by_cases inside : i < count <;> simp [inside]
      have cast : (n : Int) % 2 ^ count = ((n % 2 ^ count : Nat) : Int) := by norm_cast
      change (((2 ^ count - 1).ldiff n : Nat) : Int) = Int.negSucc n % 2 ^ count
      rw [complement, Int.negSucc_emod n (Int.pow_pos (by decide)), cast,
        Int.natCast_sub (Nat.succ_le_of_lt below)]
      push_cast
      omega

/-- To mask and then shift is to shift and then mask. -/
theorem land_shiftRight (word : Int) (mask place : Nat) :
    Int.land word (mask <<< place : Nat) >>> place = Int.land (word >>> place) mask := by
  cases word with
  | ofNat n =>
      change ((n &&& mask <<< place : Nat) : Int) >>> place = ((n >>> place &&& mask : Nat) : Int)
      rw [← Int.natCast_shiftRight, Nat.shiftRight_and_distrib, Nat.shiftLeft_shiftRight]
  | negSucc n =>
      have shifted : (mask <<< place).ldiff n >>> place = mask.ldiff (n >>> place) := by
        refine Nat.eq_of_testBit_eq fun i => ?_
        simp [Nat.testBit_ldiff, Nat.testBit_shiftLeft]
      change (((mask <<< place).ldiff n : Nat) : Int) >>> place =
        ((mask.ldiff (n >>> place) : Nat) : Int)
      rw [← Int.natCast_shiftRight, shifted]

namespace Opcode

/-- A digit is what a mask of four bits cuts out. -/
theorem digit_eq_mask (place : Nat) (word : Int) :
    ((digit (2 ^ place) word).val : Int) = Int.land word (15 <<< place : Nat) >>> place := by
  rw [digit_val, land_shiftRight, Int.shiftRight_eq_div_pow]
  exact (land_lowBits _ 4).symm

/-- The fields that a word is cut into: the four digits of its remainder, which are what masks cut
out of it, and the two tails. -/
structure Cuts (o : Opcode) (word : Int) : Prop where
  kept : o.word = word
  digits : 4096 * o.family.val + 256 * o.x.val + 16 * o.y.val + o.n.val = word % 65536
  tail : o.nn.toNat = word % 256
  target : o.nnn.val = word % 4096
  family_mask : o.family.val = Int.land word 0xF000 >>> (12 : Nat)
  x_mask : o.x.val = Int.land word 0x0F00 >>> (8 : Nat)
  y_mask : o.y.val = Int.land word 0x00F0 >>> (4 : Nat)
  n_mask : o.n.val = Int.land word 0x000F
  tail_mask : o.nn.toNat = Int.land word 0x00FF
  target_mask : o.nnn.val = Int.land word 0x0FFF

theorem ofWord_cuts (word : Int) : (ofWord word).Cuts word := by
  have tail : ((ofWord word).nn.toNat : Int) = word % 256 := by
    simp only [ofWord, BitVec.toNat_ofInt]
    omega
  have target : ((ofWord word).nnn.val : Int) = word % 4096 := by
    simp only [ofWord, Memory.cell]
    omega
  exact {
    kept := rfl
    digits := by
      have family := digit_val 4096 word
      have x := digit_val 256 word
      have y := digit_val 16 word
      have n := digit_val 1 word
      simp only [ofWord]
      omega
    tail := tail
    target := target
    family_mask := digit_eq_mask 12 word
    x_mask := digit_eq_mask 8 word
    y_mask := digit_eq_mask 4 word
    n_mask := by
      have last := digit_eq_mask 0 word
      rwa [Int.shiftRight_zero] at last
    tail_mask := tail.trans (land_lowBits word 8).symm
    target_mask := target.trans (land_lowBits word 12).symm }

/-- Words stand for one instruction each, save those that are malformed, which stand for none. -/
theorem existsUnique_means_iff {o : Opcode} :
    (∃! i, o.Means i) ↔ ¬ (o.family = 0x5 ∧ o.n ≠ 0x0) := by
  have malformed : Instruction.ofOpcode? o = none ↔ o.family = 0x5 ∧ o.n ≠ 0x0 :=
    Instruction.ofOpcode?_eq_none_iff.trans (and_congr_left fun _ => Fin.val_inj (b := 5))
  rw [← malformed]
  constructor
  · rintro ⟨i, means, -⟩ none
    rw [Instruction.ofOpcode?_of_means means] at none
    cases none
  · intro known
    obtain ⟨i, means⟩ := Option.ne_none_iff_exists'.mp known
    have meansI := Instruction.means_of_ofOpcode? means
    exact ⟨i, meansI, fun j meansJ => meansJ.unique meansI⟩

end Opcode

namespace Instruction

/-- Words of any sign and size are cut into fields, and each is classified by the opcode table
alone. A word is refused exactly if it is a comparison of two registers whose last digit is not
zero, and then the fault names the word and its address. Every other word stands for exactly one
instruction of the table, and this is the one that it is taken for. -/
theorem every_word_is_classified (word address : Int) :
    let o := Opcode.ofWord word
    o.Cuts word ∧
      (∀ f, identify word address = .error f ↔
        (o.family = 0x5 ∧ o.n ≠ 0x0) ∧ f = .malformed word address) ∧
      ((∃! i, o.Means i) ↔ ¬ (o.family = 0x5 ∧ o.n ≠ 0x0)) ∧
      ∀ i, identify word address = .ok i ↔ o.Means i := by
  intro o
  refine ⟨Opcode.ofWord_cuts word, ?_, Opcode.existsUnique_means_iff,
    fun i => identify_eq_ok_iff_means⟩
  intro f
  constructor
  · intro refused
    obtain ⟨-, -, named⟩ := identify_eq_error_iff.mp refused
    exact ⟨digits_of_malformed refused, named⟩
  · rintro ⟨⟨family, last⟩, rfl⟩
    have refused : ofOpcode? o = none := ofOpcode?_eq_none_iff.mpr ⟨congrArg Fin.val family, last⟩
    change ofOpcode? (.ofWord word) = none at refused
    rw [identify, refused]

end Instruction

end Chip8
