import Chip8.Proofs.OpcodeTable

/-!
Which words stand for which instructions. The fields of a word are the digits that it is written
with (`Opcode.ofWord_digits`, `Opcode.ofWord_tail`). A word is malformed exactly if
it compares two registers and its last digit is not zero (`identify_eq_error_iff`). A word stands
for a call exactly if its first digit is 2, and for a return exactly if it is the word `0x00EE`
(`identify_eq_call_iff`, `identify_eq_ret_iff`).
-/

namespace Chip8

namespace Opcode

theorem digit_val (weight word : Int) : ((digit weight word).val : Int) = word / weight % 16 := by
  simp only [digit]
  omega

theorem digit_eq {weight word : Int} {d : Fin 16} (same : word / weight % 16 = d.val) :
    digit weight word = d := by
  refine Fin.ext ?_
  have value := digit_val weight word
  omega

/-- The fields of a word are the digits that it is written with. -/
theorem ofWord_digits (family : Fin 16) {word : Int} {x y n : Fin 16}
    (written : word = 0x1000 * family.val + 0x100 * x.val + 0x10 * y.val + n.val) :
    (ofWord word).family = family ∧ (ofWord word).x = x ∧ (ofWord word).y = y ∧
      (ofWord word).n = n := by
  refine ⟨digit_eq ?_, digit_eq ?_, digit_eq ?_, digit_eq ?_⟩
  all_goals omega

/-- The last byte of a word is the one that it is written with. -/
theorem ofWord_tail (family : Fin 16) {word : Int} {x : Fin 16} {tail : Byte}
    (written : word = 0x1000 * family.val + 0x100 * x.val + tail.toNat) :
    (ofWord word).family = family ∧ (ofWord word).x = x ∧ (ofWord word).nn = tail := by
  have bound := tail.isLt
  refine ⟨digit_eq ?_, digit_eq ?_, ?_⟩
  · omega
  · omega
  · refine BitVec.eq_of_toNat_eq ?_
    simp only [ofWord, BitVec.toNat_ofInt]
    omega

end Opcode

namespace Instruction

variable {o : Opcode} {word address : Int}

/-! ### Malformed words -/

theorem ofOpcode?_eq_none_iff : ofOpcode? o = none ↔ o.family.val = 5 ∧ o.n ≠ 0 := by
  unfold ofOpcode?
  split
  case h_6 family => simp [family]
  all_goals simp_all

/-- Exactly the comparisons of two registers whose last digit is not zero are malformed. -/
theorem identify_eq_error_iff {f : Fault} :
    identify word address = .error f ↔
      word / 4096 % 16 = 5 ∧ word % 16 ≠ 0 ∧ f = .malformed word address := by
  have family := Opcode.digit_val 4096 word
  have last := Opcode.digit_val 1 word
  rw [Int.ediv_one] at last
  have malformed : ofOpcode? (.ofWord word) = none ↔ word / 4096 % 16 = 5 ∧ word % 16 ≠ 0 := by
    rw [ofOpcode?_eq_none_iff, Ne, Fin.ext_iff]
    change (Opcode.digit 4096 word).val = 5 ∧ ¬ (Opcode.digit 1 word).val = 0 ↔ _
    omega
  unfold identify
  cases means : ofOpcode? (.ofWord word) with
  | some i =>
      constructor
      · intro h
        cases h
      · rintro ⟨five, last, -⟩
        rw [malformed.mpr ⟨five, last⟩] at means
        cases means
  | none =>
      obtain ⟨five, last⟩ := malformed.mp means
      constructor
      · intro h
        cases h
        exact ⟨five, last, rfl⟩
      · rintro ⟨-, -, rfl⟩
        rfl

theorem digits_of_malformed {f : Fault} (malformed : identify word address = .error f) :
    (Opcode.ofWord word).family = 0x5 ∧ (Opcode.ofWord word).n ≠ 0x0 := by
  obtain ⟨five, other, -⟩ := identify_eq_error_iff.mp malformed
  have last := Opcode.digit_val 1 word
  rw [Int.ediv_one] at last
  refine ⟨Opcode.digit_eq five, ?_⟩
  intro zero
  have none : (Opcode.digit 1 word).val = 0 := congrArg Fin.val zero
  omega

/-! ### Calls and returns -/

def usesStack : Instruction → Bool
  | .ret | .call _ => true
  | _ => false

/-- The instructions that use the stack are the calls, which are family 2, and one single word. -/
theorem ofOpcode?_usesStack {i : Instruction} (means : ofOpcode? o = some i)
    (uses : i.usesStack = true) :
    (o.family.val = 2 ∧ i = .call o.nnn) ∨ (o.word = 0xEE ∧ i = .ret) := by
  have form := ofOpcode?_eq_some_iff.mp means
  cases i with
  | ret => exact .inr ⟨form.2, rfl⟩
  | call target => exact .inl ⟨congrArg Fin.val form.1, congrArg call form.2⟩
  | _ => cases uses

theorem identify_eq_ok_iff {i : Instruction} :
    identify word address = .ok i ↔ ofOpcode? (.ofWord word) = some i := by
  unfold identify
  cases ofOpcode? (.ofWord word) <;> simp

theorem identify_eq_ok_iff_means {i : Instruction} :
    identify word address = .ok i ↔ (Opcode.ofWord word).Means i :=
  identify_eq_ok_iff.trans ofOpcode?_eq_some_iff

/-- A word stands for a call exactly if its first digit is 2. -/
theorem identify_eq_call_iff {target : Target} :
    identify word address = .ok (.call target) ↔
      word / 4096 % 16 = 2 ∧ target = (Opcode.ofWord word).nnn := by
  have family := Opcode.digit_val 4096 word
  rw [identify_eq_ok_iff]
  constructor
  · intro means
    rcases ofOpcode?_usesStack means rfl with ⟨two, same⟩ | ⟨-, differ⟩
    · cases same
      change (Opcode.digit 4096 word).val = 2 at two
      exact ⟨by omega, rfl⟩
    · cases differ
  · rintro ⟨two, rfl⟩
    simp [ofOpcode?, Opcode.ofWord, Opcode.digit, two]

/-- One word alone stands for a return. -/
theorem identify_eq_ret_iff : identify word address = .ok .ret ↔ word = 0xEE := by
  rw [identify_eq_ok_iff]
  constructor
  · intro means
    rcases ofOpcode?_usesStack means rfl with ⟨-, differ⟩ | ⟨ret, -⟩
    · cases differ
    · exact ret
  · rintro rfl
    rfl

end Instruction

end Chip8
