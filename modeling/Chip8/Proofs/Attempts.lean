import Chip8.Execution
import Chip8.Proofs.Stepping

/-!
What comes of a try at a step, whether it succeeds or fails. There are five possibilities, and each
has its verdict and the machine that it leaves (`Machine.attempt`). Part by part
(`Machine.stepped_leaves`): a step that fails leaves the stack, the index register, the sound timer
and the request for a picture alone, whatever else it had begun; no step touches the mode, the
keypad or the pause; and the skipped words are counted one by one.
-/

namespace Chip8

namespace Machine

variable {m m' : Machine} {i : Instruction} {e : Interruption}

/-! ### Malformed words -/

/-- The machine stands at a malformed word: one that compares two registers and whose last digit is
not zero. -/
def AtMalformed (m : Machine) : Prop :=
  m.AtWord ∧ m.word / 4096 = 5 ∧ m.word % 16 ≠ 0

instance (m : Machine) : Decidable m.AtMalformed :=
  inferInstanceAs (Decidable (_ ∧ _))

theorem atMalformed_iff :
    m.AtMalformed ↔
      m.AtWord ∧ Instruction.identify m.word m.pc = .error (.malformed m.word m.pc) := by
  have range := m.word_range
  unfold AtMalformed
  rw [Instruction.identify_eq_error_iff]
  constructor
  · rintro ⟨inside, family, last⟩
    exact ⟨inside, by omega, last, rfl⟩
  · rintro ⟨inside, family, last, -⟩
    exact ⟨inside, by omega, last⟩

/-- The words that the next step skips: one, at a malformed word that is no fault. -/
def skips (m : Machine) : Int :=
  if m.AtMalformed ∧ m.mode.strict = false then 1 else 0

/-! ### The five outcomes of a try -/

/-- What can come of a try at a step: its verdict and the machine that it leaves. -/
inductive Attempt (m : Machine) : Verdict → Machine → Prop where
  | overrun (outside : ¬ m.AtWord) : Attempt m (.error (.fault (.overrun m.pc))) m
  | refused (malformed : m.AtMalformed) (strict : m.mode.strict = true) :
      Attempt m (.error (.fault (.malformed m.word m.pc))) m
  | skipped (malformed : m.AtMalformed) (lenient : m.mode.strict = false) :
      Attempt m (.ok (.unknown m.word)) { m.next with skipped := m.skipped + 1 }
  | done {i : Instruction} {after : Machine} (inside : m.AtWord)
      (means : Instruction.identify m.word m.pc = .ok i) (done : m.execute i = .ok after) :
      Attempt m (.ok i) after
  | stopped {i : Instruction} {e : Interruption} (inside : m.AtWord)
      (means : Instruction.identify m.word m.pc = .ok i) (stopped : m.execute i = .error e) :
      Attempt m (.error e.cause) (e.takenBack m.pc).left

theorem verdict_of_ok (done : m.step.value = .ok (i, m')) : m.verdict = .ok i ∧ m.stepped = m' := by
  simp only [verdict, stepped, done, and_self]

theorem verdict_of_error (failed : m.step.value = .error e) :
    m.verdict = .error e.cause ∧ m.stepped = e.left := by
  simp only [verdict, stepped, failed, and_self]

theorem takenBack_cause (e : Interruption) (pc : Int) : (e.takenBack pc).cause = e.cause := by
  unfold Interruption.takenBack
  split <;> rfl

/-- What can come of a try comes of it. -/
theorem Attempt.spec {verdict : Verdict} (attempt : m.Attempt verdict m') :
    m.verdict = verdict ∧ m.stepped = m' := by
  cases attempt with
  | overrun outside => exact verdict_of_error (step_of_overrun outside)
  | refused malformed strict =>
      obtain ⟨inside, refused⟩ := atMalformed_iff.mp malformed
      refine verdict_of_error (e := .refusal m _) ?_
      rw [step_of_malformed inside refused, if_pos strict]
  | skipped malformed lenient =>
      obtain ⟨inside, refused⟩ := atMalformed_iff.mp malformed
      refine verdict_of_ok ?_
      rw [step_of_malformed inside refused, lenient, if_neg Bool.false_ne_true]
  | done inside means done => exact verdict_of_ok (step_of_done inside means done)
  | @stopped i e inside means stopped =>
      rw [← takenBack_cause e m.pc]
      refine verdict_of_error ?_
      rw [step_of_instruction inside means, stopped]
      rfl

theorem exists_attempt (m : Machine) : ∃ verdict after, m.Attempt verdict after := by
  by_cases inside : m.AtWord
  · cases means : Instruction.identify m.word m.pc with
    | ok i =>
        cases result : m.execute i with
        | ok after => exact ⟨_, _, .done inside means result⟩
        | error e => exact ⟨_, _, .stopped inside means result⟩
    | error f =>
        obtain ⟨-, -, rfl⟩ := Instruction.identify_eq_error_iff.mp means
        have malformed := atMalformed_iff.mpr ⟨inside, means⟩
        cases mode : m.mode.strict with
        | true => exact ⟨_, _, .refused malformed mode⟩
        | false => exact ⟨_, _, .skipped malformed mode⟩
  · exact ⟨_, _, .overrun inside⟩

/-- One of the five comes of every try. -/
theorem attempt (m : Machine) : m.Attempt m.verdict m.stepped := by
  obtain ⟨verdict, after, attempt⟩ := m.exists_attempt
  obtain ⟨same, stepped⟩ := attempt.spec
  rw [same, stepped]
  exact attempt

/-! ### What a try leaves -/

def nextRedraw (m : Machine) : Instruction → Bool
  | .clear | .draw _ _ _ => true
  | _ => m.redraw

theorem execute_redraw (done : m.execute i = .ok m') : m'.redraw = m.nextRedraw i := by
  cases i with
  | ret =>
      rw [execute_ret_ok done]
      rfl
  | call target =>
      rw [(execute_call_ok done).2]
      rfl
  | awaitKey x =>
      rcases execute_awaitKey_ok done with ⟨-, rfl⟩ | ⟨key, rest, -, rfl⟩
      · rfl
      · rfl
  | storeDecimal x =>
      rw [storeNumbers_frame done]
      rfl
  | storeRegisters x =>
      rw [execute_storeRegisters_ok done]
      rfl
  | _ =>
      cases done
      rfl

/-- A store that is broken off has changed memory and nothing else. -/
theorem storeNumbers_left {values : List Int} {address : Int}
    (stopped : m.storeNumbers address values = .error e) :
    e.left = { m with memory := e.left.memory } := by
  induction values generalizing m address with
  | nil => cases stopped
  | cons value rest ih =>
      simp only [storeNumbers, writeMemory] at stopped
      by_cases byte : 0 ≤ value ∧ value ≤ 255
      · rw [if_pos byte] at stopped
        rw [ih stopped]
      · rw [if_neg byte] at stopped
        cases stopped
        rfl

/-- An instruction that is broken off has moved the program counter, and it may have changed
memory. -/
theorem execute_left (stopped : m.execute i = .error e) :
    e.left = { m.next with memory := e.left.memory } := by
  cases i with
  | ret =>
      cases shape : m.stack with
      | nil =>
          rw [execute_ret_nil shape] at stopped
          cases stopped
          rfl
      | cons address rest =>
          rw [execute_ret_cons shape] at stopped
          cases stopped
  | call target =>
      rw [execute_call] at stopped
      split at stopped <;> cases stopped
      rfl
  | awaitKey x =>
      simp only [execute] at stopped
      split at stopped <;> cases stopped
  | storeDecimal x => exact storeNumbers_left stopped
  | storeRegisters x => exact storeNumbers_left (stopped_of_storeRegisters stopped)
  | _ => cases stopped

/-- A part of a machine after a try: its next value if an instruction was carried out, else what it
was. -/
def follow {α : Type} (verdict : Verdict) (part : α) (next : Instruction → α) : α :=
  match verdict with
  | .ok i => next i
  | .error _ => part

/-- What a try leaves, as far as it does not hang on how far a failing step had come. -/
structure Leaves (m : Machine) (verdict : Verdict) (m' : Machine) : Prop where
  stack : m'.stack = follow verdict m.stack m.nextStack
  index : m'.index = follow verdict m.index m.nextIndex
  sound : m'.sound = follow verdict m.sound m.nextSound
  redraw : m'.redraw = follow verdict m.redraw m.nextRedraw
  mode : m'.mode = m.mode
  keypad : m'.keypad = m.keypad
  paused : m'.paused = m.paused
  skipped : m'.skipped = m.skipped + m.skips

theorem skips_of_known (known : Instruction.identify m.word m.pc = .ok i) : m.skips = 0 := by
  refine if_neg ?_
  rintro ⟨malformed, -⟩
  rw [(atMalformed_iff.mp malformed).2] at known
  cases known

theorem Leaves.of_done (known : Instruction.identify m.word m.pc = .ok i)
    (done : m.execute i = .ok m') : m.Leaves (.ok i) m' := by
  have follows := execute_follows done
  exact {
    stack := follows.stack
    index := follows.index
    sound := follows.sound
    redraw := execute_redraw done
    mode := follows.mode
    keypad := follows.keypad
    paused := follows.paused
    skipped := by rw [follows.skipped, skips_of_known known, Int.add_zero] }

/-- A machine of which only the program counter and memory are changed is what a failing step may
leave. -/
theorem Leaves.of_failure {cause : Cause} (none : m.skips = 0) (pc : Int) (memory : Memory) :
    m.Leaves (.error cause) { m with pc := pc, memory := memory } := by
  constructor
  case skipped => rw [none, Int.add_zero]
  all_goals rfl

theorem stepped_leaves (m : Machine) : m.Leaves m.verdict m.stepped := by
  have attempt := m.attempt
  generalize m.verdict = verdict, m.stepped = after at attempt
  cases attempt with
  | overrun outside =>
      have none : m.skips = 0 := if_neg fun skips => outside skips.1.1
      exact .of_failure none m.pc m.memory
  | refused malformed strict =>
      have none : m.skips = 0 := if_neg fun skips => by simp [strict] at skips
      exact .of_failure none m.pc m.memory
  | skipped malformed lenient =>
      have one : m.skips = 1 := if_pos ⟨malformed, lenient⟩
      constructor
      case skipped => rw [one]
      all_goals rfl
  | done inside means done => exact .of_done means done
  | @stopped i e inside means stopped =>
      have left := execute_left stopped
      obtain ⟨cause, machine⟩ := e
      cases cause with
      | fault f =>
          rw [show machine = _ from left]
          exact .of_failure (skips_of_known means) m.pc machine.memory
      | notAByte n =>
          change m.Leaves _ machine
          rw [show machine = _ from left]
          exact .of_failure (skips_of_known means) (m.pc + 2) machine.memory

end Machine

end Chip8
