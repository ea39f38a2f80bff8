import Chip8.Proofs.Keys
import Chip8.Proofs.Stepping
import Chip8.Proofs.Storage

/-!
Where the program goes on. `Machine.leadsTo` is read off a word, digit by digit: jumps and calls go
to their target, a return to the newest address on the stack, a comparison that holds
(`Machine.Skips`) goes behind one more word, a wait for a key stays where it is, and every other
word, with a meaning or without, goes on to the word behind it. A step that succeeds takes the
program counter there (`Machine.program_counter_follows_word`). The program counter is never counted
around the end of memory: where it leaves memory the next step fails and names it.
-/

namespace Chip8

namespace Machine

variable {m after : Machine} {i : Instruction} {o : Opcode}

/-! ### Where words lead -/

/-- The word is a comparison, and what it asks for is the case: VX is the byte or is not, VX and VY
are the same or are not, or VX is the code of a held key or is not. -/
def Skips (m : Machine) (o : Opcode) : Prop :=
  o.family = 0x3 ∧ m.registers.get o.x = o.nn.toNat ∨
    o.family = 0x4 ∧ m.registers.get o.x ≠ o.nn.toNat ∨
    o.family = 0x5 ∧ o.n = 0x0 ∧ m.registers.get o.x = m.registers.get o.y ∨
    o.family = 0x9 ∧ o.n = 0x0 ∧ m.registers.get o.x ≠ m.registers.get o.y ∨
    o.family = 0xE ∧ o.nn = 0x9E ∧ m.keypad.Holds (m.registers.get o.x) ∨
    o.family = 0xE ∧ o.nn = 0xA1 ∧ ¬ m.keypad.Holds (m.registers.get o.x)

instance (m : Machine) (o : Opcode) : Decidable (m.Skips o) :=
  inferInstanceAs (Decidable (_ ∨ _))

/-- Where a word leads that stands at the program counter. A return without an address on the stack
leads nowhere, but then no step succeeds. -/
def leadsTo (m : Machine) (o : Opcode) : Int :=
  if o.family = 0x1 ∨ o.family = 0x2 then o.nnn.val
  else if o.family = 0x0 ∧ o.word = 0xEE then m.stack.headD m.pc
  else if o.family = 0xB then o.nnn.val + m.registers.get 0
  else if m.Skips o then m.pc + 4
  else if o.family = 0xF ∧ o.nn = 0x0A ∧ m.keypad.pressed = [] then m.pc
  else m.pc + 2

/-! ### What instructions make of the program counter -/

/-- A skip goes behind one more word exactly if its condition holds. -/
theorem skip_eq {condition : Bool} (same : condition = true ↔ m.Skips o) :
    (m.pc + if condition then 4 else 2) = if m.Skips o then m.pc + 4 else m.pc + 2 := by
  by_cases skips : m.Skips o
  · rw [if_pos (same.mpr skips), if_pos skips]
  · rw [if_neg (mt same.mp skips), if_neg skips]

/-- A comparison goes on behind itself, or behind one word more. -/
theorem leadsTo_of_comparison (family : o.family ∈ [0x3, 0x4, 0x5, 0x9, 0xE]) :
    m.leadsTo o = if m.Skips o then m.pc + 4 else m.pc + 2 := by
  simp only [List.mem_cons, List.not_mem_nil, or_false] at family
  rcases family with family | family | family | family | family
  all_goals simp [leadsTo, family]

theorem nextPc_of_means (means : o.Means i) : m.nextPc i = m.leadsTo o := by
  cases i with
  | jump target | call target =>
      obtain ⟨family, rfl⟩ := means
      simp [nextPc, leadsTo, family]
  | ret =>
      obtain ⟨family, word⟩ := means
      simp [nextPc, leadsTo, family, word]
  | jumpIndexed target =>
      obtain ⟨family, rfl⟩ := means
      simp [nextPc, leadsTo, family]
  | skipIfByte x byte | skipUnlessByte x byte =>
      obtain ⟨family, rfl, rfl⟩ := means
      rw [leadsTo_of_comparison (by simp [family])]
      exact skip_eq (by simp [Skips, family])
  | skipIfSame x y | skipUnlessSame x y =>
      obtain ⟨family, last, rfl, rfl⟩ := means
      rw [leadsTo_of_comparison (by simp [family])]
      exact skip_eq (by simp [Skips, family, last])
  | skipIfKey x | skipUnlessKey x =>
      obtain ⟨family, tail, rfl⟩ := means
      rw [leadsTo_of_comparison (by simp [family])]
      exact skip_eq (by simp [Skips, family, tail, ← Keypad.isPressed_iff_holds])
  | awaitKey x =>
      obtain ⟨family, tail, rfl⟩ := means
      simp [nextPc, leadsTo, Skips, family, tail, Keypad.anyPressed]
  | clear =>
      obtain ⟨family, word⟩ := means
      simp [nextPc, leadsTo, Skips, family, word]
  | system target =>
      obtain ⟨family, -, word, rfl⟩ := means
      simp [nextPc, leadsTo, Skips, family, word]
  | unknown word =>
      obtain ⟨⟨family, other⟩ | ⟨family, other⟩ | ⟨family, other⟩ | ⟨family, other⟩, rfl⟩ := means
      all_goals simp_all [nextPc, leadsTo, Skips]
  | loadByte x operand | addByte x operand | random x operand | loadIndex target | draw x y rows =>
      simp [nextPc, leadsTo, Skips, means.1]
  | _ =>
      -- arithmetic and the words of family F but the wait go on in order
      obtain ⟨family, tail, -⟩ := means
      simp [nextPc, leadsTo, Skips, family, tail]

/-! ### Steps -/

/-- A return that succeeds takes the newest address off the stack and goes there. -/
theorem stack_of_ret (done : m.execute .ret = .ok after) : m.stack = after.pc :: after.stack := by
  cases shape : m.stack with
  | nil =>
      rw [execute_ret_nil shape] at done
      cases done
  | cons address rest =>
      rw [execute_ret_cons shape] at done
      cases done
      rfl

/-- A step that succeeds at a known word carries its instruction out. -/
theorem execute_of_step (done : m.step.value = .ok (i, after)) {j : Instruction}
    (known : Instruction.identify m.word m.pc = .ok j) : m.execute j = .ok after := by
  rcases step_ok done with ⟨-, ⟨same, done⟩ | ⟨⟨f, malformed⟩, -⟩⟩
  · rw [known] at same
    cases same
    exact done
  · rw [known] at malformed
    cases malformed

/-- A step that succeeds takes the program counter where its word leads. A call puts the address
behind itself on the stack, and a return takes the address that it goes to off the stack. A number
that is no code of a key is never that of a held one. The program counter is not counted around the
end of memory: where it stands too far for a whole word, the next step fails and names it. -/
theorem program_counter_follows_word (done : m.step.value = .ok (i, after)) :
    m.AtWord ∧ after.pc = m.leadsTo (.ofWord m.word) ∧
      ((Opcode.ofWord m.word).family = 0x2 → after.stack = (m.pc + 2) :: m.stack) ∧
      (m.word = 0xEE → m.stack = after.pc :: after.stack) ∧
      (∀ x, 15 < m.registers.get x → ¬ m.keypad.Holds (m.registers.get x)) ∧
      (4094 < after.pc → after.step.value = .error (.refusal after (.overrun after.pc))) := by
  obtain ⟨inside, outcome⟩ := step_ok done
  refine ⟨inside, ?_, ?_, ?_, ?_, ?_⟩
  · rcases outcome with ⟨known, done⟩ | ⟨⟨f, malformed⟩, -, -, rfl⟩
    · rw [(execute_follows done).pc]
      exact nextPc_of_means (Instruction.identify_eq_ok_iff_means.mp known)
    · -- a malformed word is of a family of comparisons, but compares nothing
      obtain ⟨family, last⟩ := Instruction.digits_of_malformed malformed
      rw [leadsTo_of_comparison (by simp [family]), if_neg (by simp [Skips, family, last])]
      rfl
  · intro family
    have call : (Opcode.ofWord m.word).Means (.call (Opcode.ofWord m.word).nnn) := ⟨family, rfl⟩
    have executed := execute_of_step done (Instruction.identify_eq_ok_iff_means.mpr call)
    exact (execute_follows executed).stack
  · intro ret
    exact stack_of_ret (execute_of_step done (Instruction.identify_eq_ret_iff.mpr ret))
  · intro x beyond
    exact m.keypad.not_holds_of_gt beyond
  · intro beyond
    apply step_of_overrun
    rintro ⟨-, high⟩
    omega

def skippingOut : Machine :=
  { fresh {} .silent with memory := initialMemory.store 4094 [0x30, 0x00], pc := 4094 }

theorem skippingOut_overruns :
    ∃ after, skippingOut.step.value = .ok (.skipIfByte 0 0, after) ∧ after.pc = 4098 ∧
      after.step.value = .error (.refusal after (.overrun 4098)) := by
  have word : skippingOut.word = 0x3000 := initialMemory.word_store 4094 0x30 0x00
  have known : Instruction.identify skippingOut.word skippingOut.pc = .ok (.skipIfByte 0 0) := by
    rw [word]
    rfl
  have step := step_of_done (by decide) known rfl
  obtain ⟨-, pc, -, -, -, beyond⟩ := program_counter_follows_word step
  have leads : skippingOut.leadsTo (.ofWord skippingOut.word) = 4098 := by
    rw [word]
    rfl
  rw [pc, leads] at beyond
  exact ⟨_, step, pc.trans leads, beyond (by decide)⟩

end Machine

end Chip8
