import Chip8.Instruction

/-!
The opcode table. `Opcode.Means` gives the form of the words that stand for an instruction, digit by
digit, and the decoder keeps to it: a word is taken for an instruction exactly if it has that form
(`Instruction.ofOpcode?_eq_some_iff`).
-/

namespace Chip8

namespace Opcode

/-- A word has no meaning if its family tells words apart by their tails and this tail is in no
table. The family of comparisons is not among them: its other words are malformed. -/
def Meaningless (o : Opcode) : Prop :=
  o.family = 0x8 ∧ o.n ∉ [0x0, 0x1, 0x2, 0x3, 0x4, 0x5, 0x6, 0x7, 0xE] ∨
    o.family = 0x9 ∧ o.n ≠ 0x0 ∨
    o.family = 0xE ∧ o.nn ∉ [0x9E, 0xA1] ∨
    o.family = 0xF ∧ o.nn ∉ [0x07, 0x0A, 0x15, 0x18, 0x1E, 0x29, 0x33, 0x55, 0x65]

/-- The form of the words that stand for an instruction: digits and tails that are fixed, and those
that are the operands of the instruction. -/
def Means (o : Opcode) : Instruction → Prop
  | .clear => o.family = 0x0 ∧ o.word = 0xE0
  | .ret => o.family = 0x0 ∧ o.word = 0xEE
  | .system target => o.family = 0x0 ∧ o.word ≠ 0xE0 ∧ o.word ≠ 0xEE ∧ target = o.nnn
  | .jump target => o.family = 0x1 ∧ target = o.nnn
  | .call target => o.family = 0x2 ∧ target = o.nnn
  | .skipIfByte x byte => o.family = 0x3 ∧ x = o.x ∧ byte = o.nn
  | .skipUnlessByte x byte => o.family = 0x4 ∧ x = o.x ∧ byte = o.nn
  | .skipIfSame x y => o.family = 0x5 ∧ o.n = 0x0 ∧ x = o.x ∧ y = o.y
  | .loadByte x byte => o.family = 0x6 ∧ x = o.x ∧ byte = o.nn
  | .addByte x byte => o.family = 0x7 ∧ x = o.x ∧ byte = o.nn
  | .copy x y => o.family = 0x8 ∧ o.n = 0x0 ∧ x = o.x ∧ y = o.y
  | .or x y => o.family = 0x8 ∧ o.n = 0x1 ∧ x = o.x ∧ y = o.y
  | .and x y => o.family = 0x8 ∧ o.n = 0x2 ∧ x = o.x ∧ y = o.y
  | .xor x y => o.family = 0x8 ∧ o.n = 0x3 ∧ x = o.x ∧ y = o.y
  | .add x y => o.family = 0x8 ∧ o.n = 0x4 ∧ x = o.x ∧ y = o.y
  | .subtract x y => o.family = 0x8 ∧ o.n = 0x5 ∧ x = o.x ∧ y = o.y
  | .shiftRight x y => o.family = 0x8 ∧ o.n = 0x6 ∧ x = o.x ∧ y = o.y
  | .subtractFrom x y => o.family = 0x8 ∧ o.n = 0x7 ∧ x = o.x ∧ y = o.y
  | .shiftLeft x y => o.family = 0x8 ∧ o.n = 0xE ∧ x = o.x ∧ y = o.y
  | .skipUnlessSame x y => o.family = 0x9 ∧ o.n = 0x0 ∧ x = o.x ∧ y = o.y
  | .loadIndex target => o.family = 0xA ∧ target = o.nnn
  | .jumpIndexed target => o.family = 0xB ∧ target = o.nnn
  | .random x mask => o.family = 0xC ∧ x = o.x ∧ mask = o.nn
  | .draw x y rows => o.family = 0xD ∧ x = o.x ∧ y = o.y ∧ rows = o.n
  | .skipIfKey x => o.family = 0xE ∧ o.nn = 0x9E ∧ x = o.x
  | .skipUnlessKey x => o.family = 0xE ∧ o.nn = 0xA1 ∧ x = o.x
  | .readDelay x => o.family = 0xF ∧ o.nn = 0x07 ∧ x = o.x
  | .awaitKey x => o.family = 0xF ∧ o.nn = 0x0A ∧ x = o.x
  | .setDelay x => o.family = 0xF ∧ o.nn = 0x15 ∧ x = o.x
  | .setSound x => o.family = 0xF ∧ o.nn = 0x18 ∧ x = o.x
  | .addIndex x => o.family = 0xF ∧ o.nn = 0x1E ∧ x = o.x
  | .loadGlyph x => o.family = 0xF ∧ o.nn = 0x29 ∧ x = o.x
  | .storeDecimal x => o.family = 0xF ∧ o.nn = 0x33 ∧ x = o.x
  | .storeRegisters x => o.family = 0xF ∧ o.nn = 0x55 ∧ x = o.x
  | .loadRegisters x => o.family = 0xF ∧ o.nn = 0x65 ∧ x = o.x
  | .unknown word => o.Meaningless ∧ word = o.word

end Opcode

namespace Instruction

variable {o : Opcode} {i : Instruction}

/-! ### Every word has the form of its instruction -/

theorem means_ofHost (family : o.family = 0x0) : o.Means (ofHost o) := by
  unfold ofHost
  split
  · rename_i clear
    exact ⟨family, clear⟩
  · split
    · rename_i ret
      exact ⟨family, ret⟩
    · rename_i clear ret
      exact ⟨family, clear, ret, rfl⟩

theorem means_ofArithmetic (family : o.family = 0x8) : o.Means (ofArithmetic o) := by
  unfold ofArithmetic
  split
  case h_10 =>
    refine ⟨.inl ⟨family, ?_⟩, rfl⟩
    generalize o.n = last at *
    revert last
    decide
  all_goals
    rename_i last
    exact ⟨family, Fin.ext last, rfl, rfl⟩

theorem means_ofKeyTest (family : o.family = 0xE) : o.Means (ofKeyTest o) := by
  unfold ofKeyTest
  split
  case h_3 =>
    refine ⟨.inr (.inr (.inl ⟨family, ?_⟩)), rfl⟩
    simp only [List.mem_cons, List.not_mem_nil, ← BitVec.toNat_inj]
    simp_all
  all_goals
    rename_i tail
    exact ⟨family, BitVec.eq_of_toNat_eq tail, rfl⟩

theorem means_ofTransfer (family : o.family = 0xF) : o.Means (ofTransfer o) := by
  unfold ofTransfer
  split
  case h_10 =>
    refine ⟨.inr (.inr (.inr ⟨family, ?_⟩)), rfl⟩
    simp only [List.mem_cons, List.not_mem_nil, ← BitVec.toNat_inj]
    simp_all
  all_goals
    rename_i tail
    exact ⟨family, BitVec.eq_of_toNat_eq tail, rfl⟩

theorem means_of_ofOpcode? (means : ofOpcode? o = some i) : o.Means i := by
  unfold ofOpcode? at means
  split at means
  case h_1 family =>
    cases means
    exact means_ofHost (Fin.ext family)
  case h_6 family =>
    split at means <;> cases means
    rename_i last
    exact ⟨Fin.ext family, last, rfl, rfl⟩
  case h_9 family =>
    cases means
    exact means_ofArithmetic (Fin.ext family)
  case h_10 family =>
    cases means
    split
    · rename_i last
      exact ⟨Fin.ext family, last, rfl, rfl⟩
    · rename_i last
      exact ⟨.inr (.inl ⟨Fin.ext family, last⟩), rfl⟩
  case h_15 family =>
    cases means
    exact means_ofKeyTest (Fin.ext family)
  case h_16 =>
    cases means
    refine means_ofTransfer ?_
    generalize o.family = family at *
    revert family
    decide
  case h_14 family =>
    cases means
    exact ⟨Fin.ext family, rfl, rfl, rfl⟩
  case h_2 family | h_3 family | h_11 family | h_12 family =>
    cases means
    exact ⟨Fin.ext family, rfl⟩
  all_goals
    rename_i family
    cases means
    exact ⟨Fin.ext family, rfl, rfl⟩

/-! ### Every form is recognised -/

theorem ofArithmetic_of_meaningless (none : o.n ∉ [0x0, 0x1, 0x2, 0x3, 0x4, 0x5, 0x6, 0x7, 0xE]) :
    ofArithmetic o = .unknown o.word := by
  have other : o.n.val ∉ [0x0, 0x1, 0x2, 0x3, 0x4, 0x5, 0x6, 0x7, 0xE] := by
    revert none
    generalize o.n = last
    revert last
    decide
  unfold ofArithmetic
  split
  case h_10 => rfl
  all_goals
    rename_i last
    simp [last] at other

theorem ofKeyTest_of_meaningless (none : o.nn ∉ [0x9E, 0xA1]) :
    ofKeyTest o = .unknown o.word := by
  simp only [List.mem_cons, List.not_mem_nil, ← BitVec.toNat_inj] at none
  unfold ofKeyTest
  split
  case h_3 => rfl
  all_goals
    rename_i tail
    simp [tail] at none

theorem ofTransfer_of_meaningless
    (none : o.nn ∉ [0x07, 0x0A, 0x15, 0x18, 0x1E, 0x29, 0x33, 0x55, 0x65]) :
    ofTransfer o = .unknown o.word := by
  simp only [List.mem_cons, List.not_mem_nil, ← BitVec.toNat_inj] at none
  unfold ofTransfer
  split
  case h_10 => rfl
  all_goals
    rename_i tail
    simp [tail] at none

theorem ofOpcode?_of_means (means : o.Means i) : ofOpcode? o = some i := by
  cases i with
  | unknown word =>
    obtain ⟨⟨family, none⟩ | ⟨family, none⟩ | ⟨family, none⟩ | ⟨family, none⟩, rfl⟩ := means
    · rw [← ofArithmetic_of_meaningless none]
      simp only [ofOpcode?, family]
      rfl
    · simp only [ofOpcode?, family, if_neg none]
      rfl
    · rw [← ofKeyTest_of_meaningless none]
      simp only [ofOpcode?, family]
      rfl
    · rw [← ofTransfer_of_meaningless none]
      simp only [ofOpcode?, family]
  | clear =>
    obtain ⟨family, word⟩ := means
    simp only [ofOpcode?, family, ofHost, word]
    rfl
  | ret =>
    obtain ⟨family, word⟩ := means
    simp only [ofOpcode?, family, ofHost, word]
    rfl
  | system target =>
    obtain ⟨family, clear, ret, rfl⟩ := means
    simp only [ofOpcode?, family, ofHost, if_neg clear, if_neg ret]
    rfl
  | jump target | call target | loadIndex target | jumpIndexed target =>
    obtain ⟨family, rfl⟩ := means
    simp only [ofOpcode?, family]
    rfl
  | skipIfByte x byte | skipUnlessByte x byte | loadByte x byte | addByte x byte | random x mask =>
    obtain ⟨family, rfl, rfl⟩ := means
    simp only [ofOpcode?, family]
    rfl
  | draw x y rows =>
    obtain ⟨family, rfl, rfl, rfl⟩ := means
    simp only [ofOpcode?, family]
    rfl
  | skipIfSame x y | skipUnlessSame x y =>
    obtain ⟨family, last, rfl, rfl⟩ := means
    simp only [ofOpcode?, family, if_pos last]
    rfl
  | copy x y | or x y | and x y | xor x y | add x y | subtract x y | subtractFrom x y
  | shiftLeft x y | shiftRight x y =>
    obtain ⟨family, last, rfl, rfl⟩ := means
    simp only [ofOpcode?, family, ofArithmetic, last]
    rfl
  | skipIfKey x | skipUnlessKey x =>
    obtain ⟨family, tail, rfl⟩ := means
    simp only [ofOpcode?, family, ofKeyTest, tail]
    rfl
  | _ =>
    obtain ⟨family, tail, rfl⟩ := means
    simp only [ofOpcode?, family, ofTransfer, tail]
    rfl

/-- A word is taken for exactly the instruction whose form it has. -/
theorem ofOpcode?_eq_some_iff : ofOpcode? o = some i ↔ o.Means i := by
  constructor
  · exact means_of_ofOpcode?
  · exact ofOpcode?_of_means

end Instruction

/-- A word stands for one instruction only. -/
theorem Opcode.Means.unique {o : Opcode} {i j : Instruction} (first : o.Means i)
    (second : o.Means j) : i = j := by
  have same := Instruction.ofOpcode?_of_means second
  rw [Instruction.ofOpcode?_of_means first] at same
  exact Option.some.inj same

end Chip8
