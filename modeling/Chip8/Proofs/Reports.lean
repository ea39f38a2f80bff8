import Chip8.Proofs.CommandLines
import Chip8.Proofs.Loading
import Chip8.Proofs.Schedule
import Chip8.Proofs.Strictness
import Chip8.Proofs.Windowless

/-!
What the program reports of work without a window. Which report comes of a command line is decided
by what comes of its path: no program (`Program.run_of_unread`), one that is too long
(`run_of_tooLarge`), or one that fits, whose machine then works and is shown (`run_of_fits`).

The machine works on the schedule of its steps (`Schedule.headless_meets`). A fault has stopped the
schedule exactly if one of its steps came to the fault (`Schedule.fault_eq_some_iff`), and the count
of skipped words is that of the steps that were tried at a malformed word
(`Schedule.reached_skipped`). Together they say what exit code, what error and what output come of a
program and a number of steps (`Program.headless_report`).
-/

namespace Chip8

namespace Machine

variable {m : Machine} {f f' : Fault}

theorem Fails.unique (fails : m.Fails f) (fails' : m.Fails f') : f = f' := by
  have same := fails.step.symm.trans fails'.step
  cases same
  rfl

/-- A step that comes to a fault skips no word. -/
theorem Fails.skips (fails : m.Fails f) : m.skips = 0 := by
  have left : m.stepped = m := by simp only [stepped, fails.step, Interruption.refusal]
  have counted := m.stepped_leaves.skipped
  rw [left] at counted
  omega

end Machine

namespace Schedule

variable {s : Schedule} {c n : Nat} {f : Fault} {m : Machine}

/-! ### The steps of a schedule -/

/-- The machine of a schedule behind a number of steps. -/
def reached (cycles : Nat) (m : Machine) (count : Nat) : Machine :=
  (beats cycles count { machine := m }).machine

/-- A fault stops a schedule with the step that comes to it. -/
theorem Accounted.beat_fault_iff (accounts : Accounted c n s) :
    (Schedule.beat c s).fault = some f ↔ s.machine.Fails f := by
  cases going : s.stop with
  | some cause =>
      obtain ⟨-, g, rfl, fails⟩ := accounts.part cause going
      have fault : s.fault = some g := by rw [Schedule.fault, going]; rfl
      rw [beat_of_stopped going, fault]
      constructor
      · intro same
        cases same
        exact fails
      · intro other
        rw [fails.unique other]
  | none =>
      cases result : s.machine.step.value with
      | error e =>
          obtain ⟨g, fails, rfl⟩ := accounts.wellFormed.step_error result
          rw [beat_of_error going result]
          constructor
          · intro same
            cases same
            exact fails
          · intro other
            rw [fails.unique other]
            rfl
      | ok done =>
          obtain ⟨-, stop, -⟩ := beat_succeeds (c := c) going result
          rw [fault_of_going stop]
          constructor
          · intro none
            cases none
          · intro fails
            cases fails.step.symm.trans result

/-- A fault has stopped a schedule exactly if one of its steps came to the fault. -/
theorem fault_eq_some_iff (wf : m.WellFormed) :
    (beats c n { machine := m }).fault = some f ↔ ∃ i, i < n ∧ (reached c m i).Fails f := by
  induction n with
  | zero => simp [beats, Schedule.fault]
  | succ n ih =>
      have accounts := (accounted_start wf c).beats n
      rw [beats, accounts.beat_fault_iff]
      constructor
      · intro fails
        exact ⟨n, Nat.lt_succ_self n, fails⟩
      · rintro ⟨i, within, fails⟩
        rcases Nat.lt_succ_iff_lt_or_eq.mp within with before | rfl
        · -- The schedule has been stopped by then, and its machine still stands at the fault.
          have stop := accounts.stop_eq
          rw [ih.mpr ⟨i, before, fails⟩] at stop
          obtain ⟨-, g, same, still⟩ := accounts.part _ stop
          cases same
          exact still
        · exact fails

/-- A step of a schedule fails by coming to a fault. -/
theorem reached_step_error (wf : m.WellFormed) {i : Nat} {e : Interruption}
    (failed : (reached c m i).step.value = .error e) :
    ∃ f, e.cause = .fault f ∧ (reached c m i).Fails f := by
  obtain ⟨f, fails, rfl⟩ := ((accounted_start wf c).beats i).wellFormed.step_error failed
  exact ⟨f, rfl, fails⟩

/-- One of the first steps of a schedule fails, or all of them succeed. -/
theorem fails_or_succeeds (c : Nat) (m : Machine) (n : Nat) :
    (∃ i, i < n ∧ ∃ e, (reached c m i).step.value = .error e) ∨
      ∀ i, i < n → ∃ done, (reached c m i).step.value = .ok done := by
  by_cases fails : ∃ i, i < n ∧ ∃ e, (reached c m i).step.value = .error e
  · exact .inl fails
  · refine .inr fun i within => ?_
    cases result : (reached c m i).step.value with
    | ok done => exact ⟨done, rfl⟩
    | error e => exact absurd ⟨i, within, e, result⟩ fails

/-- A schedule that goes on has the machine of its next step, with the timers counted down or
not. -/
theorem beat_machine (going : s.stop = none) :
    (beat c s).machine = s.machine.stepped ∨ (beat c s).machine = s.machine.stepped.countDown := by
  cases result : s.machine.step.value with
  | error e =>
      rw [beat_of_error going result, (Machine.verdict_of_error result).2]
      exact .inl rfl
  | ok done =>
      rw [(Machine.verdict_of_ok result).2]
      exact (beat_succeeds going result).2.2.2

theorem beat_mode (c : Nat) (s : Schedule) : (beat c s).machine.mode = s.machine.mode := by
  cases going : s.stop with
  | some cause => rw [beat_of_stopped going]
  | none =>
      rcases beat_machine (c := c) going with same | same
      · rw [same, s.machine.stepped_leaves.mode]
      · rw [same]
        exact s.machine.stepped_leaves.mode

theorem reached_mode (c : Nat) (m : Machine) (n : Nat) : (reached c m n).mode = m.mode := by
  induction n with
  | zero => rfl
  | succ n ih => exact (beat_mode c _).trans ih

/-- A step of a schedule counts the word that it skips. -/
theorem Accounted.beat_skipped (accounts : Accounted c n s) :
    (Schedule.beat c s).machine.skipped = s.machine.skipped + s.machine.skips := by
  cases going : s.stop with
  | some cause =>
      obtain ⟨-, g, rfl, fails⟩ := accounts.part cause going
      rw [beat_of_stopped going, fails.skips, Int.add_zero]
  | none =>
      rcases beat_machine (c := c) going with same | same
      · rw [same, s.machine.stepped_leaves.skipped]
      · rw [same]
        exact s.machine.stepped_leaves.skipped

/-- How many of the first steps of a schedule skip a malformed word. A step at which the schedule is
stopped skips none, since a machine that goes over such words comes to no fault there. -/
def wordsSkipped (cycles : Nat) (m : Machine) (count : Nat) : Nat :=
  (List.range count).countP fun i =>
    decide ((reached cycles m i).AtMalformed) && !m.mode.strict

/-- The words that a machine has skipped behind the steps of its schedule are those at which the
steps were tried. -/
theorem reached_skipped (wf : m.WellFormed) (c n : Nat) :
    (reached c m n).skipped = m.skipped + wordsSkipped c m n := by
  induction n with
  | zero => exact (Int.add_zero _).symm
  | succ n ih =>
      have counted : (reached c m (n + 1)).skipped =
          (reached c m n).skipped + (reached c m n).skips :=
        ((accounted_start wf c).beats n).beat_skipped
      rw [counted, ih, Machine.skips, reached_mode, wordsSkipped, wordsSkipped, List.range_succ,
        List.countP_append, List.countP_singleton]
      cases m.mode.strict <;> by_cases malformed : (reached c m n).AtMalformed
      all_goals simp [malformed, Int.add_assoc]

end Schedule

namespace Program

variable {tree : FileTree} {toolkit : Toolkit} {noise : Noise} {sources : Nat → Noise}
  {audible : Bool} {batches : List (List Event)} {words : List String} {settings : Settings}
  {program : List Byte} {m : Machine} {f : Fault}

/-! ### What comes of a path -/

/-- Without a program there is no run. -/
theorem run_of_unread {trouble : ProgramError} (parsed : CommandLine.parse words = .ok settings)
    (failed : ProgramFile.read tree settings.program = .error trouble) :
    run tree toolkit sources audible batches words =
      match trouble with
      | .refused refusal => { ending := .exit 2, err := ["Error: " ++ refusal.message] }
      | .unreadable e => { ending := .failed (.file e) } := by
  simp only [run, start, parsed, ProgramFile.machine, failed]
  cases trouble <;> rfl

/-- A program that is too long is not run. -/
theorem run_of_tooLarge (parsed : CommandLine.parse words = .ok settings)
    (found : ProgramFile.read tree settings.program = .ok program)
    (long : Machine.programLimit < program.length) :
    run tree toolkit sources audible batches words =
      { ending := .exit 2
        out := logged settings [.fileRead program.length settings.program]
        err := ["Error: " ++ (TooLarge.mk program.length).message] } := by
  have refused : Machine.ofProgram settings.mode (sources 0) program = .error ⟨program.length⟩ :=
    if_neg (Nat.not_le.mpr long)
  simp only [run, start, parsed, ProgramFile.machine, found, refused]
  rfl

/-- A program that fits is run. -/
theorem run_of_fits (audible : Bool) (batches : List (List Event))
    (parsed : CommandLine.parse words = .ok settings)
    (unseen : settings.headless = true)
    (found : ProgramFile.read tree settings.program = .ok program)
    (made : Machine.ofProgram settings.mode (sources 0) program = .ok m) :
    ∃ notices,
      run tree toolkit sources audible batches words = headless ⟨settings, m, notices⟩ := by
  refine ⟨[.fileRead program.length settings.program, .programLoaded program.length], ?_⟩
  simp only [run, start, parsed, ProgramFile.machine, found, made, unseen, if_true]

/-! ### What is shown of a machine -/

/-- Lines show a display: one line for each row, with a cross for every lit pixel and a dot for
every dark one. -/
structure Pictures (lines : List String) (display : Display) : Prop where
  height : lines.length = 32
  line : ∀ y, y < 32 → ∃ line, lines[y]? = some line ∧ line.toList.length = 64 ∧
    ∀ x, x < 64 → line.toList[x]? = some (if display.lit x y then '#' else '.')

theorem rows_pictures (display : Display) : Pictures (display.rows.map rowText) display where
  height := by simp [Display.rows, Display.height]
  line y below := by
    refine ⟨rowText (display.row y), ?_, ?_, ?_⟩
    · simp [Display.rows, Display.height, below]
    · simp [rowText, Display.row, Display.width]
    · intro x within
      simp [rowText, Display.row, Display.width, within]

/-- The output of a report ends with a machine and a number of skipped words: the picture, the
state, and the number if it is not zero. -/
structure Report.EndsOn (report : Report) (last : Machine) (skipped : Nat) : Prop where
  runner : report.runner.map (·.machine) = some last
  out : ∃ before picture, Pictures picture last.display ∧
    report.out = before ++ picture ++ [last.dump] ++
      if 0 < skipped then ["Skipped " ++ toString skipped ++ " malformed opcode(s)"] else []

theorem skippedText_natCast (skipped : Nat) :
    skippedText skipped =
      if 0 < skipped then ["Skipped " ++ toString skipped ++ " malformed opcode(s)"] else [] := by
  unfold skippedText
  cases skipped with
  | zero => rfl
  | succ k => rfl

theorem ended_endsOn {r : Runner} {skipped : Nat} (counted : r.machine.skipped = skipped)
    (before : List String) :
    (ended r (before ++ lastState r.machine)).EndsOn r.machine skipped := by
  have out : (ended r (before ++ lastState r.machine)).out = before ++ lastState r.machine := by
    unfold ended
    split <;> rfl
  refine ⟨by rw [(ended_endsWith r _).runner]; rfl, before, _, rows_pictures _, ?_⟩
  rw [out, lastState, counted, skippedText_natCast]
  simp only [List.append_assoc]

theorem ended_of_fault {r : Runner} (stopped : r.fault = some f) (out : List String) :
    (ended r out).ending = .exit 1 ∧ (ended r out).err = ["Halted: " ++ f.message] := by
  simp only [ended, stopped, and_self]

theorem ended_of_running {r : Runner} (running : r.fault = none) (out : List String) :
    (ended r out).ending = .exit 0 ∧ (ended r out).err = [] := by
  simp only [ended, running, and_self]

/-! ### Work without a window -/

open Schedule

/-- Work without a window ends on the machine behind the steps of the schedule. A step that fails is
told as a fault, and if all succeed there is nothing to tell. -/
theorem headless_of_steps {s : Start} {steps : Int} (wf : s.machine.WellFormed)
    (unpaused : s.machine.paused = false) (unskipped : s.machine.skipped = 0)
    (given : s.settings.steps = some steps) :
    let n := (max 0 steps).toNat
    (headless s).EndsOn (reached 10 s.machine n) (wordsSkipped 10 s.machine n) ∧
      (∀ i, i < n → ∀ e, (reached 10 s.machine i).step.value = .error e →
        ∃ f, e.cause = .fault f ∧
          (headless s).ending = .exit 1 ∧ (headless s).err = ["Halted: " ++ f.message]) ∧
      ((∀ i, i < n → ∃ done, (reached 10 s.machine i).step.value = .ok done) →
        (headless s).ending = .exit 0 ∧ (headless s).err = []) := by
  intro n
  have size : steps.toNat = n := by omega
  have accounts := (accounted_start wf 10).beats n
  have meets := headless_meets wf unpaused steps Runner.defaultCycles
  rw [size] at meets
  change Meets _ (beats 10 n { machine := s.machine }) at meets
  obtain ⟨before, shape⟩ : ∃ before, headless s =
      ended (Runner.headless s.machine steps Runner.defaultCycles).runner (before ++
        lastState (Runner.headless s.machine steps Runner.defaultCycles).runner.machine) := by
    simp only [headless, given, Program.given, meets.broken.trans accounts.unbroken]
    exact ⟨_, rfl⟩
  rw [shape]
  -- The runner is where the schedule is: its machine gives the output, its fault the exit code.
  refine ⟨?_, ?_, ?_⟩
  · have machine : (Runner.headless s.machine steps Runner.defaultCycles).runner.machine =
        reached 10 s.machine n := meets.machine
    have counted := reached_skipped wf 10 n
    rw [unskipped, Int.zero_add, ← machine] at counted
    rw [← machine]
    exact ended_endsOn counted before
  · intro i within e failed
    obtain ⟨f, cause, fails⟩ := reached_step_error wf failed
    have fault := meets.fault.trans ((fault_eq_some_iff wf).mpr ⟨i, within, fails⟩)
    exact ⟨f, cause, ended_of_fault fault _⟩
  · intro all
    refine ended_of_running (meets.fault.trans ?_) _
    cases fault : (beats 10 n { machine := s.machine }).fault with
    | none => rfl
    | some f =>
        obtain ⟨i, within, fails⟩ := (fault_eq_some_iff wf).mp fault
        obtain ⟨done, result⟩ := all i within
        cases fails.step.symm.trans result

/-- A machine with a program is well-formed, at work, and has skipped no words. -/
theorem ofProgram_starts {mode : Mode} (made : Machine.ofProgram mode noise program = .ok m) :
    m.WellFormed ∧ m.paused = false ∧ m.skipped = 0 := by
  refine ⟨((Machine.fresh_inRange _ _).load made).toWellFormed, ?_, ?_⟩
  · rw [Machine.ofProgram_frame made]
    rfl
  · rw [Machine.ofProgram_frame made]
    rfl

/-- What comes of a program and a number of steps without a window. The exit code is 2 exactly if
the program is too long for memory, and then nothing is run and the error tells its size. Otherwise
the machine with the program works on the schedule of its steps, and the output ends with the
picture, the state and the number of skipped words behind them. The exit code is 1 exactly if one of
the steps fails, which is a fault that the error tells, and else it is 0 and there is no error. -/
theorem headless_report (tree : FileTree) (toolkit : Toolkit) (sources : Nat → Noise)
    (audible : Bool) (batches : List (List Event)) (words : List String) (settings : Settings)
    (steps : Int) (program : List Byte) (parsed : CommandLine.parse words = .ok settings)
    (unseen : settings.headless = true) (given : settings.steps = some steps)
    (found : ProgramFile.read tree settings.program = .ok program) :
    let report := run tree toolkit sources audible batches words
    let n := (max 0 steps).toNat
    (report.ending = .exit 2 ↔ 3584 < program.length) ∧
    (3584 < program.length →
      report.runner = none ∧
      report.err = ["Error: ROM is too large for memory (" ++ toString program.length ++
        " bytes, max 3584)"]) ∧
    (program.length ≤ 3584 → ∃ start,
      Machine.ofProgram settings.mode (sources 0) program = .ok start ∧
      report.EndsOn (reached 10 start n) (wordsSkipped 10 start n) ∧
      (report.ending = .exit 1 ↔
        ∃ i, i < n ∧ ∃ e, (reached 10 start i).step.value = .error e) ∧
      (∀ i, i < n → ∀ e, (reached 10 start i).step.value = .error e →
        ∃ f, e.cause = .fault f ∧ report.err = ["Halted: " ++ f.message]) ∧
      ((∀ i, i < n → ∃ done, (reached 10 start i).step.value = .ok done) →
        report.ending = .exit 0 ∧ report.err = [])) := by
  intro report n
  by_cases fits : program.length ≤ 3584
  · obtain ⟨start, made⟩ : ∃ start,
        Machine.ofProgram settings.mode (sources 0) program = .ok start := ⟨_, if_pos fits⟩
    obtain ⟨notices, shape⟩ := run_of_fits audible batches parsed unseen found made
    obtain ⟨wf, unpaused, unskipped⟩ := ofProgram_starts made
    obtain ⟨shown, halted, ended⟩ := headless_of_steps (s := ⟨settings, start, notices⟩)
      wf unpaused unskipped given
    rw [← shape] at shown halted ended
    have code : report.ending ≠ .exit 2 ∧ (report.ending = .exit 1 ↔
        ∃ i, i < n ∧ ∃ e, (reached 10 start i).step.value = .error e) := by
      rcases fails_or_succeeds 10 start n with ⟨i, within, e, failed⟩ | all
      · obtain ⟨f, -, one, -⟩ := halted i within e failed
        rw [show report.ending = .exit 1 from one]
        exact ⟨nofun, fun _ => ⟨i, within, e, failed⟩, fun _ => rfl⟩
      · rw [show report.ending = .exit 0 from (ended all).1]
        refine ⟨nofun, nofun, ?_⟩
        rintro ⟨i, within, e, failed⟩
        obtain ⟨done, result⟩ := all i within
        cases failed.symm.trans result
    refine ⟨⟨fun two => absurd two code.1, fun long => absurd long (Nat.not_lt.mpr fits)⟩,
      fun long => absurd long (Nat.not_lt.mpr fits),
      fun _ => ⟨start, made, shown, code.2, ?_, ended⟩⟩
    intro i within e failed
    obtain ⟨f, cause, -, err⟩ := halted i within e failed
    exact ⟨f, cause, err⟩
  · have long : 3584 < program.length := Nat.lt_of_not_le fits
    have shape : report = _ := run_of_tooLarge parsed found long
    rw [shape]
    refine ⟨⟨fun _ => long, fun _ => rfl⟩, fun _ => ⟨rfl, ?_⟩, fun short => absurd short fits⟩
    rw [tooLarge_message]
    rfl

def faltering : FileTree :=
  ⟨[], [(["falter"], .file [0x51, 0x21, 0x00, 0xEE]), (["long"], .file (List.replicate 3585 0))]⟩

def falteringMachine : Machine :=
  { Machine.fresh { legacyStore := true } .silent with
    memory := Machine.initialMemory.store Machine.origin [0x51, 0x21, 0x00, 0xEE] }

/-- The words that ask for a number of steps of one of the two. -/
def falteringWords (path : String) (steps : Int) : List String :=
  [path, "--headless", "--steps", toString steps] ++ CommandLine.modeWords { legacyStore := true }

/-- The second of five steps is a return from no call, behind a word that is skipped; a number of
steps below zero asks for none; and the longer program is not run. -/
theorem faltering_report :
    let report := run faltering .obliging Window.silence false []
    let five := report (falteringWords "falter" 5)
    let none := report (falteringWords "falter" (-3))
    let long := report (falteringWords "long" 5)
    five.ending = .exit 1 ∧ (∃ f, five.err = ["Halted: " ++ Fault.message f]) ∧
      (∃ before picture dump, picture.length = 32 ∧
        five.out = before ++ picture ++ [dump] ++ ["Skipped 1 malformed opcode(s)"]) ∧
      (none.ending = .exit 0 ∧ none.err = []) ∧
      long.ending = .exit 2 ∧
        long.err = ["Error: ROM is too large for memory (3585 bytes, max 3584)"] := by
  intro report five none long
  have parsed (path : String) (plain : path.toList.head? ≠ some '-') (steps : Int)
      (short : (Nat.toDigits 10 steps.natAbs).length ≤ Text.digitLimit) :
      CommandLine.parse (falteringWords path steps) = _ :=
    CommandLine.parse_steps plain steps short { legacyStore := true }
  obtain ⟨-, -, fits⟩ := headless_report faltering .obliging Window.silence false []
    (falteringWords "falter" 5) _ 5 [0x51, 0x21, 0x00, 0xEE]
    (parsed "falter" (by decide) 5 (by decide)) rfl rfl rfl
  obtain ⟨start, made, shown, code, told, -⟩ := fits (by decide)
  obtain rfl : falteringMachine = start := Except.ok.inj made
  have one : five.ending = .exit 1 := by decide +kernel
  obtain ⟨i, within, e, failed⟩ := code.mp one
  obtain ⟨f, -, error⟩ := told i within e failed
  obtain ⟨before, picture, pictures, out⟩ := shown.out
  have skipped : wordsSkipped 10 falteringMachine (max 0 (5 : Int)).toNat = 1 := by decide +kernel
  rw [skipped] at out
  obtain ⟨-, -, rests⟩ := headless_report faltering .obliging Window.silence false []
    (falteringWords "falter" (-3)) _ (-3) [0x51, 0x21, 0x00, 0xEE]
    (parsed "falter" (by decide) (-3) (by decide)) rfl rfl rfl
  obtain ⟨start, -, -, -, -, zero⟩ := rests (by decide)
  obtain ⟨two, refused, -⟩ := headless_report faltering .obliging Window.silence false []
    (falteringWords "long" 5) _ 5 (List.replicate 3585 0)
    (parsed "long" (by decide) 5 (by decide)) rfl rfl rfl
  have size : (List.replicate 3585 (0 : Byte)).length = 3585 := List.length_replicate
  rw [size] at two refused
  refine ⟨one, ⟨f, error⟩, ⟨before, picture, _, pictures.height, out⟩, zero ?_,
    two.mpr (by decide), (refused (by decide)).2⟩
  intro i within
  exact absurd within (Nat.not_lt_zero i)

end Program

end Chip8
