import Chip8.Proofs.Decoding
import Chip8.Proofs.Effects

/-!
What one step comes to. A step that succeeds carried out the instruction at the program counter or
skipped a malformed word (`step_ok`). A step that fails met one of four faults, and then the machine
is left as it was, or broke off at a number that is no byte (`step_error`).

A well-formed machine has bytes in its registers and no more on its stack than fits there. Steps
keep it well-formed (`WellFormed.stepped`), and they fail with exactly the faults of a short table,
`Machine.Due`, and with nothing else (`step_fails_iff_due`). Its timers do not bear on this; where
they matter, they are asked to be in range on their own (`Timer.InRange`).
-/

namespace Chip8

inductive Timer where
  | delay
  | sound
  deriving DecidableEq, Repr

namespace Timer

def reading : Timer → Machine → Int
  | .delay, m => m.delay
  | .sound, m => m.sound

/-- A timer is no less than zero. Only a client can set it below. -/
def InRange (t : Timer) (m : Machine) : Prop :=
  0 ≤ t.reading m

instance (t : Timer) (m : Machine) : Decidable (t.InRange m) :=
  inferInstanceAs (Decidable (0 ≤ t.reading m))

end Timer

namespace Machine

variable {m m' : Machine} {i : Instruction} {e : Interruption} {f : Fault}

/-! ### Fetching -/

theorem word_range (m : Machine) : 0 ≤ m.word ∧ m.word < 65536 := by
  have high := (m.memory.read m.pc).isLt
  have low := (m.memory.read (m.pc + 1)).isLt
  unfold word Memory.word
  omega

theorem place?_eq_cell {address : Int} (inside : 0 ≤ address ∧ address < 4096) :
    place? 4096 address = some (Memory.cell address) := by
  have front : ¬ address < 0 := by omega
  have known : 0 ≤ address ∧ address < (4096 : Nat) := by omega
  simp only [place?, if_neg front, dif_pos known, Memory.cell]
  congr
  omega

/-- The two bytes of a whole word are places in memory. -/
theorem fetch?_eq_some (inside : m.AtWord) : m.fetch? = some m.word := by
  obtain ⟨low, high⟩ := inside
  rw [fetch?, place?_eq_cell (by omega), place?_eq_cell (by omega)]
  rfl

/-! ### The branches of a step -/

theorem step_of_overrun (outside : ¬ m.AtWord) :
    m.step.value = .error (.refusal m (.overrun m.pc)) := by
  rw [step, stepAt, if_neg outside]

theorem step_of_instruction (inside : m.AtWord) (known : Instruction.identify m.word m.pc = .ok i) :
    m.step.value = ((m.execute i).map (i, ·)).mapError (·.takenBack m.pc) := by
  simp only [step, stepAt, if_pos inside, known]

theorem step_of_done (inside : m.AtWord) (known : Instruction.identify m.word m.pc = .ok i)
    (done : m.execute i = .ok m') : m.step.value = .ok (i, m') := by
  rw [step_of_instruction inside known, done]
  rfl

theorem step_of_malformed (inside : m.AtWord)
    (malformed : Instruction.identify m.word m.pc = .error f) :
    m.step.value =
      if m.mode.strict then .error (.refusal m f)
      else .ok (.unknown m.word, { m.next with skipped := m.skipped + 1 }) := by
  simp only [step, stepAt, if_pos inside, malformed]
  split <;> rfl

/-- A step that succeeds carried out an instruction or skipped a malformed word. -/
theorem step_ok (done : m.step.value = .ok (i, m')) :
    m.AtWord ∧
      ((Instruction.identify m.word m.pc = .ok i ∧ m.execute i = .ok m') ∨
        ((∃ f, Instruction.identify m.word m.pc = .error f) ∧ m.mode.strict = false ∧
          i = .unknown m.word ∧ m' = { m.next with skipped := m.skipped + 1 })) := by
  by_cases inside : m.AtWord
  · refine ⟨inside, ?_⟩
    cases means : Instruction.identify m.word m.pc with
    | ok j =>
        rw [step_of_instruction inside means] at done
        cases result : m.execute j with
        | ok after =>
            rw [result] at done
            cases done
            exact .inl ⟨rfl, result⟩
        | error stop =>
            rw [result] at done
            cases done
    | error f =>
        rw [step_of_malformed inside means] at done
        split at done <;> cases done
        rename_i lenient
        exact .inr ⟨⟨f, rfl⟩, by simpa using lenient, rfl, rfl⟩
  · rw [step_of_overrun inside] at done
    cases done

/-! ### Faults -/

/-- The four ways to a fault. -/
inductive Fails (m : Machine) : Fault → Prop where
  | overrun (outside : ¬ m.AtWord) : Fails m (.overrun m.pc)
  | stackOverflow {target : Target} (inside : m.AtWord)
      (call : Instruction.identify m.word m.pc = .ok (.call target))
      (full : stackLimit ≤ m.stack.length) : Fails m (.stackOverflow m.pc m.stack.length)
  | stackUnderflow (inside : m.AtWord) (ret : Instruction.identify m.word m.pc = .ok .ret)
      (empty : m.stack = []) : Fails m (.stackUnderflow m.pc)
  | malformed {f : Fault} (inside : m.AtWord) (strict : m.mode.strict = true)
      (malformed : Instruction.identify m.word m.pc = .error f) : Fails m f

/-- A refusal is taken back whole: only the program counter had moved. -/
theorem takenBack_refusal (m : Machine) (f : Fault) :
    (Interruption.refusal m.next f).takenBack m.pc = .refusal m f :=
  rfl

/-- A fault leaves the machine as it was. -/
theorem Fails.step (fails : m.Fails f) : m.step.value = .error (.refusal m f) := by
  cases fails with
  | overrun outside => exact step_of_overrun outside
  | stackOverflow inside call full =>
      rw [step_of_instruction inside call, (Refused.call full).execute]
      exact congrArg Except.error (takenBack_refusal m _)
  | stackUnderflow inside ret empty =>
      rw [step_of_instruction inside ret, (Refused.ret empty).execute]
      exact congrArg Except.error (takenBack_refusal m _)
  | malformed inside strict malformed => rw [step_of_malformed inside malformed, if_pos strict]

/-- A step that fails came to a fault and left the machine as it was, or it broke off at a number
that is no byte, which a machine whose registers hold bytes does not have. -/
theorem step_error (failed : m.step.value = .error e) :
    (∃ f, m.Fails f ∧ e = .refusal m f) ∨ ((∃ n, e.cause = .notAByte n) ∧ ¬ m.HoldsBytes) := by
  by_cases inside : m.AtWord
  · cases means : Instruction.identify m.word m.pc with
    | ok i =>
        rw [step_of_instruction inside means] at failed
        cases result : m.execute i with
        | ok after =>
            rw [result] at failed
            cases failed
        | error stop =>
            rw [result] at failed
            cases failed
            rcases execute_error result with refused | ⟨⟨n, cause⟩, broken⟩
            · left
              cases refused with
              | call full => exact ⟨_, .stackOverflow inside means full, takenBack_refusal m _⟩
              | ret empty => exact ⟨_, .stackUnderflow inside means empty, takenBack_refusal m _⟩
            · right
              refine ⟨⟨n, ?_⟩, broken⟩
              simp only [Interruption.takenBack, cause]
    | error f =>
        rw [step_of_malformed inside means] at failed
        split at failed <;> cases failed
        rename_i strict
        exact .inl ⟨f, .malformed inside strict means, rfl⟩
  · rw [step_of_overrun inside] at failed
    cases failed
    exact .inl ⟨_, .overrun inside, rfl⟩

/-- Whatever a machine holds, a step that comes to a fault leaves it as it was. -/
theorem left_of_fault (failed : m.step.value = .error e) (fault : e.cause = .fault f) :
    m.Fails f ∧ e.left = m := by
  rcases step_error failed with ⟨g, fails, rfl⟩ | ⟨⟨n, cause⟩, -⟩
  · cases fault
    exact ⟨fails, rfl⟩
  · rw [cause] at fault
    cases fault

/-! ### Well-formed machines -/

/-- The registers hold bytes and the stack is within its limit. -/
structure WellFormed (m : Machine) : Prop where
  bytes : m.HoldsBytes
  depth : m.stack.length ≤ stackLimit

namespace WellFormed

/-- A well-formed machine fails by a fault only. -/
theorem step_error (wf : m.WellFormed) (failed : m.step.value = .error e) :
    ∃ f, m.Fails f ∧ e = .refusal m f := by
  rcases Machine.step_error failed with fault | ⟨-, broken⟩
  · exact fault
  · exact absurd wf.bytes broken

theorem execute (wf : m.WellFormed) (done : m.execute i = .ok m') : m'.WellFormed := by
  refine ⟨execute_bytes wf.bytes done, ?_⟩
  rw [(execute_follows done).stack]
  have depth := wf.depth
  cases i with
  | ret =>
      simp only [nextStack, List.length_tail]
      omega
  | call target => exact (execute_call_ok done).1
  | _ => exact depth

theorem step_ok (wf : m.WellFormed) (done : m.step.value = .ok (i, m')) : m'.WellFormed := by
  rcases Machine.step_ok done with ⟨-, ⟨-, done⟩ | ⟨-, -, -, rfl⟩⟩
  · exact wf.execute done
  · exact ⟨wf.bytes, wf.depth⟩

/-- A well-formed machine stays well-formed, whether its step succeeds or fails. -/
theorem stepped (wf : m.WellFormed) : m.stepped.WellFormed := by
  unfold Machine.stepped
  cases result : m.step.value with
  | ok done => exact wf.step_ok result
  | error stop =>
      obtain ⟨f, -, rfl⟩ := wf.step_error result
      exact wf

/-- Steps of a well-formed machine neither pause it nor let it go on. -/
theorem stepped_paused (wf : m.WellFormed) : m.stepped.paused = m.paused := by
  unfold Machine.stepped
  cases result : m.step.value with
  | ok done =>
      obtain ⟨i, after⟩ := done
      rcases Machine.step_ok result with ⟨-, ⟨-, done⟩ | ⟨-, -, -, rfl⟩⟩
      · exact (execute_follows done).paused
      · rfl
  | error stop =>
      obtain ⟨f, -, rfl⟩ := wf.step_error result
      rfl

theorem countDown (wf : m.WellFormed) : m.countDown.WellFormed :=
  ⟨wf.bytes, wf.depth⟩

end WellFormed

/-- A well-formed machine that is not paused. -/
structure Awake (m : Machine) : Prop extends WellFormed m where
  unpaused : m.paused = false

theorem Awake.stepped (awake : m.Awake) : m.stepped.Awake where
  toWellFormed := awake.toWellFormed.stepped
  unpaused := awake.toWellFormed.stepped_paused.trans awake.unpaused

theorem Awake.countDown (awake : m.Awake) : m.countDown.Awake where
  toWellFormed := awake.toWellFormed.countDown
  unpaused := awake.unpaused

/-! ### The exact failures -/

/-- The faults that are due at the next step, each with the numbers it names: outside memory; at a
call with a full stack; at a return with an empty one; at a malformed word, if the machine is
strict. -/
def Due (m : Machine) : Fault → Prop
  | .overrun pc => (m.pc < 0 ∨ 4095 ≤ m.pc) ∧ pc = m.pc
  | .stackOverflow address depth =>
      m.AtWord ∧ m.word / 4096 = 2 ∧ m.stack.length = 16 ∧ address = m.pc ∧ depth = 16
  | .stackUnderflow address => m.AtWord ∧ m.word = 0x00EE ∧ m.stack = [] ∧ address = m.pc
  | .malformed word address =>
      m.AtWord ∧ m.mode.strict = true ∧ m.word / 4096 = 5 ∧ m.word % 16 ≠ 0 ∧
        word = m.word ∧ address = m.pc

theorem Fails.due (wf : m.WellFormed) (fails : m.Fails f) : m.Due f := by
  have range := m.word_range
  cases fails with
  | overrun outside =>
      unfold AtWord at outside
      exact ⟨by omega, rfl⟩
  | stackOverflow inside call full =>
      obtain ⟨family, -⟩ := Instruction.identify_eq_call_iff.mp call
      have depth : m.stack.length = 16 := Nat.le_antisymm wf.depth full
      exact ⟨inside, by omega, depth, rfl, depth⟩
  | stackUnderflow inside ret empty =>
      exact ⟨inside, Instruction.identify_eq_ret_iff.mp ret, empty, rfl⟩
  | malformed inside strict malformed =>
      obtain ⟨family, last, rfl⟩ := Instruction.identify_eq_error_iff.mp malformed
      exact ⟨inside, strict, by omega, last, rfl, rfl⟩

theorem Due.fails (due : m.Due f) : m.Fails f := by
  cases f with
  | overrun pc =>
      obtain ⟨outside, rfl⟩ := due
      refine .overrun fun inside => ?_
      unfold AtWord at inside
      omega
  | stackOverflow address depth =>
      obtain ⟨inside, family, full, rfl, rfl⟩ := due
      have call : Instruction.identify m.word m.pc = .ok (.call (Opcode.ofWord m.word).nnn) :=
        Instruction.identify_eq_call_iff.mpr ⟨by omega, rfl⟩
      rw [← full]
      exact .stackOverflow inside call (Nat.le_of_eq full.symm)
  | stackUnderflow address =>
      obtain ⟨inside, ret, empty, rfl⟩ := due
      exact .stackUnderflow inside (Instruction.identify_eq_ret_iff.mpr ret) empty
  | malformed word address =>
      obtain ⟨inside, strict, family, last, rfl, rfl⟩ := due
      exact .malformed inside strict (Instruction.identify_eq_error_iff.mpr ⟨by omega, last, rfl⟩)

/-- A well-formed machine fails with exactly the faults that are due, and with nothing else: the
word at its program counter is read within bounds, no store meets a number that is no byte, and
every step at which no fault is due succeeds. -/
theorem step_fails_iff_due (wf : m.WellFormed) :
    (m.AtWord → m.fetch? = some m.word) ∧
      (∀ cause, (∃ left, m.step.value = .error ⟨cause, left⟩) ↔ ∃ f, cause = .fault f ∧ m.Due f) ∧
      ((∃ done, m.step.value = .ok done) ↔ ∀ f, ¬ m.Due f) := by
  refine ⟨fetch?_eq_some, ?_, ?_⟩
  · intro cause
    constructor
    · rintro ⟨left, failed⟩
      obtain ⟨f, fails, same⟩ := wf.step_error failed
      cases same
      exact ⟨f, rfl, fails.due wf⟩
    · rintro ⟨f, rfl, due⟩
      exact ⟨m, due.fails.step⟩
  · constructor
    · rintro ⟨done, succeeded⟩ f due
      rw [due.fails.step] at succeeded
      cases succeeded
    · intro none
      cases result : m.step.value with
      | ok done => exact ⟨done, rfl⟩
      | error stop =>
          obtain ⟨f, fails, -⟩ := wf.step_error result
          exact absurd (fails.due wf) (none f)

def fullAtCall : Machine :=
  { fresh {} .silent with
    memory := initialMemory.store origin [0x22, 0x00], stack := List.replicate 16 0x202 }

theorem fullAtCall_overflows :
    fullAtCall.WellFormed ∧
      ∃ left, fullAtCall.step.value = .error ⟨.fault (.stackOverflow 0x200 16), left⟩ := by
  have wf : fullAtCall.WellFormed := ⟨fun r => fresh_bytes {} .silent r, by decide⟩
  obtain ⟨-, fails, -⟩ := step_fails_iff_due wf
  exact ⟨wf, (fails _).mpr ⟨_, rfl, by decide, by decide +kernel, rfl, rfl, rfl⟩⟩

end Machine

end Chip8
