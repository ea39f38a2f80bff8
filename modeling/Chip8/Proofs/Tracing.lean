import Chip8.Proofs.Attempts
import Chip8.Proofs.Disassembly
import Chip8.Proofs.Runs

/-!
What runs say of themselves. A try at a step gives notice of what its machine stands at and of
nothing else (`Machine.notices_step`): at an instruction, whether it can be carried out or not, of
its place and its assembler text; at a malformed word that is passed over, of the word and its
place; and there is no notice of a step that is refused before. So the notices of a run are those of
its tries, one after the other (`Machine.notices_run`), and its trace is the disassembly of the
words that it came upon. A step is traced only if somebody hears it, and that is all that the level
of what is heard decides (`Machine.stepAt_eq`), so it makes no difference to the run
(`Machine.trace_is_disassembly`).
-/

namespace Chip8

instance (o : Opcode) : Decidable o.Meaningless :=
  inferInstanceAs (Decidable (_ ∨ _ ∨ _ ∨ _))

/-! ### Notices -/

@[simp] theorem Level.hears_debug (level : Level) : Level.debug.hears level = true :=
  decide_eq_true (Nat.zero_le _)

namespace Notice

def isTrace : Notice → Bool
  | .traced _ _ => true
  | _ => false

def entry (notice : Notice) : Level × String :=
  (notice.level, notice.message)

/-- A notice is given while notices from a level on are heard: traces are given only if somebody
hears them, all others whether they are heard or not. -/
def givenAt (level : Level) (notice : Notice) : Bool :=
  !notice.isTrace || level.hears .debug

/-- The lowest level lets every notice through. -/
theorem atLeast_debug (notices : List Notice) : atLeast .debug notices = notices :=
  List.filter_eq_self.mpr fun notice _ => Level.hears_debug notice.level

/-- Of the notices that are heard none is withheld. -/
theorem atLeast_givenAt (level : Level) (notices : List Notice) :
    atLeast level (notices.filter (givenAt level)) = atLeast level notices := by
  rw [atLeast, atLeast, List.filter_filter]
  refine List.filter_congr fun notice _ => ?_
  cases notice with
  | traced pc i => exact Bool.and_self _
  | _ => exact Bool.and_true _

end Notice

namespace Run

/-- One more step, of which only some notices are heard. -/
def stepHearing (hears : Notice → Bool) (run : Run) : Run :=
  if run.ended then run
  else { run.step with notices := (run.machine.step.notices.filter hears).reverse ++ run.notices }

/-- One more step while notices from a level on are heard. -/
def stepAt (level : Level) (run : Run) : Run :=
  if run.ended then run else run.take (run.machine.stepAt level)

variable {run : Run}

/-- A try puts its notices in front of those before it and does nothing else with them. -/
theorem take_eq (run : Run) (before : List Notice)
    (attempt : Reported (Except Interruption (Instruction × Machine))) (given : List Notice) :
    take { run with notices := before } ⟨attempt.value, given⟩ =
      { run.take attempt with notices := given.reverse ++ before } := by
  unfold take
  cases attempt.value <;> rfl

theorem step_withNotices (going : run.ended = false) (before : List Notice) :
    step { run with notices := before } =
      { run.step with notices := run.machine.step.notices.reverse ++ before } := by
  have still : ({ run with notices := before } : Run).ended = false := going
  rw [step, step, still, going]
  exact take_eq run before run.machine.step run.machine.step.notices

theorem step_notices (going : run.ended = false) :
    run.step.notices = run.machine.step.notices.reverse ++ run.notices :=
  congrArg notices (step_withNotices going run.notices)

/-- A step of which only some notices are heard is the step, with these notices. -/
theorem stepHearing_eq (hears : Notice → Bool) (run : Run) :
    stepHearing hears { run with notices := run.notices.filter hears } =
      { run.step with notices := run.step.notices.filter hears } := by
  cases going : run.ended with
  | true =>
      rw [step_of_ended going]
      exact if_pos going
  | false =>
      have still : ({ run with notices := run.notices.filter hears } : Run).ended = false := going
      rw [stepHearing, still, if_neg Bool.false_ne_true, step_withNotices going,
        step_notices going, List.filter_append, List.filter_reverse]

end Run

namespace Machine

variable {m reached : Machine} {n : Nat} {i : Instruction}

def runHearing (hears : Notice → Bool) (m : Machine) : Nat → Run
  | 0 => { machine := m }
  | count + 1 => (m.runHearing hears count).stepHearing hears

def runAt (level : Level) (m : Machine) : Nat → Run
  | 0 => { machine := m }
  | count + 1 => (m.runAt level count).stepAt level

/-! ### What is noted of a step -/

/-- The machine stands at a whole word that is not malformed. -/
def AtInstruction (m : Machine) : Prop :=
  m.AtWord ∧ ¬ m.AtMalformed

instance (m : Machine) : Decidable m.AtInstruction :=
  inferInstanceAs (Decidable (_ ∧ _))

/-- The machine stands at a malformed word and passes over it. -/
def PassesOver (m : Machine) : Prop :=
  m.AtMalformed ∧ m.mode.strict = false

instance (m : Machine) : Decidable m.PassesOver :=
  inferInstanceAs (Decidable (_ ∧ _))

/-- The record of an instruction that is tried: its place and the text of its word. -/
def traceLine (m : Machine) : String :=
  "mem_addr: 0x" ++ Numeral.hexLower 4 m.pc ++ "    instruction: " ++ disassemble m.word

/-- The record of a malformed word that is passed over, which names the word and its place. -/
def passLine (m : Machine) : String :=
  (Fault.malformed m.word m.pc).message ++ ", treating as no-op"

/-- What a log holds of a try at a step: the trace of an instruction, with a remark if it has no
meaning; or a warning of a malformed word that is passed over; or nothing. -/
def log (m : Machine) : List (Level × String) :=
  if m.AtInstruction then
    (.debug, m.traceLine) ::
      if (Opcode.ofWord m.word).Meaningless then
        [(.debug, "Ignoring unknown opcode " ++ Numeral.hex 4 m.word)]
      else []
  else if m.PassesOver then [(.warning, m.passLine)]
  else []

theorem remarks_of_known {word address : Int} (known : Instruction.identify word address = .ok i) :
    remarks i = if (Opcode.ofWord word).Meaningless then [.unknownIgnored word] else [] := by
  have means := Instruction.identify_eq_ok_iff_means.mp known
  split
  · rename_i none
    have data : (Opcode.ofWord word).Means (.unknown word) := ⟨none, rfl⟩
    rw [means.unique data]
    rfl
  · rename_i some
    cases i with
    | unknown data => exact absurd means.1 some
    | _ => rfl

/-- The notices of a try at a step. -/
theorem notices_step (m : Machine) :
    m.step.notices =
      if m.AtInstruction then
        .traced m.pc (.shown m.word) ::
          if (Opcode.ofWord m.word).Meaningless then [.unknownIgnored m.word] else []
      else if m.PassesOver then [.malformedSkipped (.malformed m.word m.pc)]
      else [] := by
  by_cases inside : m.AtWord
  · cases known : Instruction.identify m.word m.pc with
    | ok i =>
        have clear : ¬ m.AtMalformed := fun malformed => by
          rw [(atMalformed_iff.mp malformed).2] at known
          cases known
        have shown := Instruction.shown_of_known (Instruction.identify_eq_ok_iff.mp known)
        rw [if_pos ⟨inside, clear⟩, shown, ← remarks_of_known known]
        simp only [step, stepAt, if_pos inside, known, Level.hears_debug, if_true,
          List.singleton_append]
    | error f =>
        obtain ⟨-, -, rfl⟩ := Instruction.identify_eq_error_iff.mp known
        have malformed := atMalformed_iff.mpr ⟨inside, known⟩
        rw [if_neg fun instruction => instruction.2 malformed]
        simp only [step, stepAt, if_pos inside, known, PassesOver, malformed, true_and]
        cases m.mode.strict <;> rfl
  · have clear : ¬ m.PassesOver := fun passes => inside passes.1.1
    rw [if_neg fun instruction => inside instruction.1, if_neg clear]
    simp only [step, stepAt, if_neg inside]

theorem entries_step (m : Machine) : m.step.notices.map Notice.entry = m.log := by
  rw [notices_step, log]
  split
  · rw [traceLine, Instruction.disassemble_eq_text]
    split <;> rfl
  · split <;> rfl

theorem trace_step (m : Machine) :
    (m.step.notices.filter Notice.isTrace).map Notice.message =
      if m.AtInstruction then [m.traceLine] else [] := by
  rw [notices_step, traceLine, Instruction.disassemble_eq_text]
  split
  · split <;> rfl
  · split <;> rfl

theorem warnings_step (m : Machine) :
    (m.step.notices.filter (·.level = .warning)).map Notice.message =
      if m.PassesOver then [m.passLine] else [] := by
  rw [notices_step]
  by_cases passes : m.PassesOver
  · rw [if_neg fun instruction => instruction.2 passes.1, if_pos passes, if_pos passes]
    rfl
  · rw [if_neg passes, if_neg passes]
    split
    · split <;> rfl
    · rfl

/-! ### What is noted at a level -/

/-- The level decides whether a step is traced, and nothing else. -/
theorem stepAt_eq (level : Level) (m : Machine) :
    m.stepAt level = ⟨m.step.value, m.step.notices.filter (Notice.givenAt level)⟩ := by
  by_cases inside : m.AtWord
  · cases known : Instruction.identify m.word m.pc with
    | ok i =>
        have remarked : (remarks i).filter (Notice.givenAt level) = remarks i := by
          cases i <;> rfl
        simp only [step, stepAt, if_pos inside, known, Level.hears_debug, if_true,
          List.singleton_append, List.filter_cons, remarked]
        cases heard : level.hears .debug <;> simp [Notice.givenAt, Notice.isTrace, heard]
    | error f =>
        simp only [step, stepAt, if_pos inside, known]
        cases m.mode.strict <;> rfl
  · simp only [step, stepAt, if_neg inside, List.filter_nil]

theorem runAt_eq (level : Level) (m : Machine) (n : Nat) :
    m.runAt level n = m.runHearing (Notice.givenAt level) n := by
  induction n with
  | zero => rfl
  | succ n ih =>
      rw [runAt, runHearing, ih, Run.stepAt, Run.stepHearing]
      cases going : (m.runHearing (Notice.givenAt level) n).ended with
      | true => rfl
      | false =>
          rw [if_neg Bool.false_ne_true, if_neg Bool.false_ne_true, stepAt_eq, Run.step, going]
          exact Run.take_eq _ _ _ _

/-! ### What is noted of a run -/

/-- The notices of a run are those of its tries. -/
theorem notices_run (m : Machine) (n : Nat) :
    (m.run n).notices.reverse = (m.trail n).flatMap fun tried => tried.step.notices := by
  induction n with
  | zero => rfl
  | succ n ih =>
      rw [run_succ]
      cases all : m.after? n with
      | some reached =>
          obtain ⟨machine, fault, broken, -⟩ := run_of_after all
          have going := Run.ended_eq_false_iff.mpr ⟨fault, broken⟩
          rw [Run.step_notices going, machine, trail_succ all]
          simp [ih]
      | none =>
          rw [Run.step_of_ended (run_ended all), trail_succ_of_none all]
          exact ih

theorem runHearing_eq (hears : Notice → Bool) (m : Machine) (n : Nat) :
    m.runHearing hears n = { m.run n with notices := (m.run n).notices.filter hears } := by
  induction n with
  | zero => rfl
  | succ n ih => rw [runHearing, ih, Run.stepHearing_eq, run_succ]

/-- What every try of a run may note once, the run notes for each try at which it is due. -/
theorem noted_run (m : Machine) (n : Nat) {heard : Notice → Bool} {due : Machine → Prop}
    [DecidablePred due] {line : Machine → String}
    (once : ∀ tried : Machine, (tried.step.notices.filter heard).map Notice.message =
      if due tried then [line tried] else []) :
    ((m.run n).notices.reverse.filter heard).map Notice.message =
      ((m.trail n).filter due).map line := by
  rw [notices_run]
  induction m.trail n with
  | nil => rfl
  | cons tried rest ih =>
      rw [List.flatMap_cons, List.filter_append, List.map_append, once, ih]
      by_cases noted : due tried
      · rw [if_pos noted, List.filter_cons_of_pos (by simpa using noted)]
        rfl
      · rw [if_neg noted, List.filter_cons_of_neg (by simpa using noted)]
        rfl

/-- The trace is the disassembly of what a run came upon. Take any machine and any number of steps,
up to the first that fails, all notices heard. Then the trace has one record for each step that was
tried at a whole word which is not malformed, whether it could be carried out or not, in order, and
each names the place and the assembler text of the word that stood there at the time. For each
malformed word that is passed over there is one warning, which names the word and its place. Nothing
else is logged than these and a remark behind the trace of a word without a meaning, so a step that
is refused outside memory, or at a malformed word, leaves no entry.

From whatever level on notices are heard, the run is the same in all its parts but the notices that
are given, and those that are heard are the same too. Nor does it matter to the run if only notices
of some other kind are heard: they are those among its notices. -/
theorem trace_is_disassembly (m : Machine) (n : Nat) :
    let notices := Notice.atLeast .debug (m.run n).notices.reverse
    (notices.filter Notice.isTrace).map Notice.message =
        ((m.trail n).filter AtInstruction).map traceLine ∧
      (notices.filter (·.level = .warning)).map Notice.message =
        ((m.trail n).filter PassesOver).map passLine ∧
      notices.map Notice.entry = (m.trail n).flatMap log ∧
      (∀ level : Level,
        m.runAt level n = { m.run n with notices := (m.runAt level n).notices } ∧
        Notice.atLeast level (m.runAt level n).notices =
          Notice.atLeast level (m.run n).notices) ∧
      ∀ hears : Notice → Bool,
        m.runHearing hears n = { m.run n with notices := (m.run n).notices.filter hears } := by
  intro notices
  have all : notices = (m.run n).notices.reverse := Notice.atLeast_debug _
  rw [all]
  refine ⟨m.noted_run n trace_step, m.noted_run n warnings_step, ?_, fun level => ?_,
    fun hears => m.runHearing_eq hears n⟩
  · rw [notices_run, List.map_flatMap]
    exact congrArg (m.trail n).flatMap (funext entries_step)
  · rw [runAt_eq, runHearing_eq]
    exact ⟨rfl, Notice.atLeast_givenAt level _⟩

end Machine

end Chip8
