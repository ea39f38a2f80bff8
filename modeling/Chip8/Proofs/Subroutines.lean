import Chip8.Proofs.Attempts

/-!
Calls and returns. No move does more to the stack than take from its top or put on it
(`Machine.moved_stack`), so what lies deep enough stays. A call puts the address behind it on the
stack; as long as the stack stays deeper than it was before the call, that address and all below it
are kept, and the move that takes the stack back is a return to just behind the call
(`call_is_returned_from`). What the called routine does in the meantime, further calls and changes
of the program included, does not matter.
-/

namespace Chip8

namespace Machine

variable {m : Machine} {base : List Int} {moves : List Move}

/-! ### What moves do to the stack -/

/-- Only a return takes from the stack. -/
theorem nextStack_cases (m : Machine) (i : Instruction) :
    (i = .ret ∧ m.nextStack i = m.stack.tail) ∨ m.stack <:+ m.nextStack i := by
  cases i with
  | ret => exact .inl ⟨rfl, rfl⟩
  | call target => exact .inr (List.suffix_cons _ _)
  | _ => exact .inr (List.suffix_refl _)

/-- A move keeps what is on the stack, unless it is a step that carries out a return. -/
theorem moved_stack_cases (m : Machine) (move : Move) :
    (move = .step ∧ m.verdict = .ok .ret ∧ (m.moved move).stack = m.stack.tail) ∨
      m.stack <:+ (m.moved move).stack := by
  cases move with
  | step =>
      change _ ∨ m.stack <:+ m.stepped.stack
      have stack := m.stepped_leaves.stack
      rw [moved, stack]
      cases verdict : m.verdict with
      | ok i =>
          rcases m.nextStack_cases i with ⟨rfl, tail⟩ | kept
          · exact .inl ⟨rfl, rfl, tail⟩
          · exact .inr kept
      | error cause => exact .inr (List.suffix_refl _)
  | countDown | act action => exact .inr (List.suffix_refl _)

/-- No move does more to the stack than take from its top or put on it. -/
theorem moved_stack (m : Machine) (move : Move) :
    (m.moved move).stack <:+ m.stack ∨ m.stack <:+ (m.moved move).stack := by
  rcases m.moved_stack_cases move with ⟨-, -, tail⟩ | kept
  · rw [tail]
    exact .inl (List.tail_suffix _)
  · exact .inr kept

/-- The base of the stack is kept by a move behind which the stack is at least as deep. -/
theorem base_moved (based : base <:+ m.stack) {move : Move}
    (deep : base.length ≤ (m.moved move).stack.length) : base <:+ (m.moved move).stack := by
  rcases m.moved_stack move with taken | kept
  · exact List.suffix_of_suffix_length_le based taken deep
  · exact based.trans kept

/-- The base of the stack is kept as long as the stack stays at least as deep. -/
theorem base_movedAll (based : base <:+ m.stack)
    (deep : ∀ n ≤ moves.length, base.length ≤ (m.movedAll (moves.take n)).stack.length) :
    base <:+ (m.movedAll moves).stack := by
  induction moves generalizing m with
  | nil => exact based
  | cons move rest ih =>
      have first := base_moved based (deep 1 (by simp))
      refine ih first ?_
      intro n within
      exact deep (n + 1) (Nat.succ_le_succ within)

/-! ### Calls and their returns -/

/-- A call that succeeds puts the address behind it on the stack. -/
theorem stepped_stack_of_call {target : Target} (call : m.verdict = .ok (.call target)) :
    m.stepped.stack = (m.pc + 2) :: m.stack := by
  have stack := m.stepped_leaves.stack
  rw [call] at stack
  exact stack

theorem stepped_of_ret (ret : m.verdict = .ok .ret) :
    m.word = 0xEE ∧ m.stepped.pc = m.stack.headD m.pc := by
  have attempt := m.attempt
  rw [ret] at attempt
  generalize m.stepped = after at attempt
  cases attempt with
  | done inside means done =>
      exact ⟨Instruction.identify_eq_ret_iff.mp means, (execute_follows done).pc⟩

/-- Every call is returned from, if at all, to just behind it. Let a machine carry out a call, and
let any moves follow, steps that fail included. As long as the stack stays deeper than it was before
the call, its lower part is what it was then, and the address behind the call lies on that. The move
that then takes the stack back to its depth before the call is a step that carries out a return: it
goes on behind the call, with the stack that was there before it. -/
theorem call_is_returned_from (m : Machine) (target : Target)
    (call : m.verdict = .ok (.call target)) (moves : List Move)
    (deep : ∀ n ≤ moves.length,
      m.stack.length < (m.stepped.movedAll (moves.take n)).stack.length) :
    let reached := m.stepped.movedAll moves
    (m.pc + 2) :: m.stack <:+ reached.stack ∧
      ∀ move, (reached.moved move).stack.length ≤ m.stack.length →
        move = .step ∧ reached.verdict = .ok .ret ∧ reached.word = 0xEE ∧
          reached.stepped.pc = m.pc + 2 ∧ reached.stepped.stack = m.stack := by
  intro reached
  have start : (m.pc + 2) :: m.stack <:+ m.stepped.stack :=
    stepped_stack_of_call call ▸ List.suffix_refl _
  have based : (m.pc + 2) :: m.stack <:+ reached.stack := base_movedAll start deep
  refine ⟨based, ?_⟩
  intro move shallow
  have depth := based.length_le
  rw [List.length_cons] at depth
  rcases reached.moved_stack_cases move with ⟨rfl, ret, tail⟩ | kept
  · obtain ⟨word, pc⟩ := stepped_of_ret ret
    rw [tail, List.length_tail] at shallow
    have whole : (m.pc + 2) :: m.stack = reached.stack := by
      refine based.eq_of_length_le ?_
      rw [List.length_cons]
      omega
    rw [← whole] at pc tail
    exact ⟨rfl, ret, word, pc, tail⟩
  · have more := kept.length_le
    omega

def nesting : Machine :=
  { fresh {} .silent with
    memory := initialMemory.store origin
      [0x22, 0x06, 0x12, 0x02, 0x00, 0x00, 0x22, 0x0A, 0x00, 0xEE, 0xF0, 0x55, 0x00, 0xEE]
    index := 0x20A }

theorem nesting_returns :
    nesting.verdict = .ok (.call 0x206) ∧
      let moves := [Move.step, .act (.press 1), .step, .countDown, .step]
      let reached := nesting.stepped.movedAll moves
      (∀ n ≤ moves.length,
        nesting.stack.length < (nesting.stepped.movedAll (moves.take n)).stack.length) ∧
      [0x202] <:+ reached.stack ∧
      (reached.moved .step).stack.length ≤ nesting.stack.length ∧
      reached.verdict = .ok .ret ∧ reached.stepped.pc = 0x202 ∧ reached.stepped.stack = [] := by
  have word : nesting.word = 0x2206 := by decide +kernel
  have means : Instruction.identify nesting.word nesting.pc = .ok (.call 0x206) := by
    rw [word]
    rfl
  have called : nesting.execute (.call 0x206) =
      .ok { nesting with pc := 0x206, stack := [0x202] } :=
    execute_call 0x206
  obtain ⟨call, -⟩ := (Attempt.done (by decide) means called).spec
  have deep : ∀ n ≤ [Move.step, .act (.press 1), .step, .countDown, .step].length,
      nesting.stack.length < (nesting.stepped.movedAll
        ([Move.step, .act (.press 1), .step, .countDown, .step].take n)).stack.length := by
    decide +kernel
  have shallow : ((nesting.stepped.movedAll
      [Move.step, .act (.press 1), .step, .countDown, .step]).moved .step).stack.length ≤
        nesting.stack.length := by
    decide +kernel
  obtain ⟨based, returns⟩ := call_is_returned_from nesting 0x206 call _ deep
  obtain ⟨-, ret, -, pc, stack⟩ := returns .step shallow
  exact ⟨call, deep, based, shallow, ret, pc, stack⟩

end Machine

end Chip8
