import Chip8.Operation
import Chip8.Proofs.Stepping

/-!
Steps in a row. `Machine.after?` is the machine after a number of steps that all succeed. A run of
the machine follows it (`run_of_after`) and ends at the first step that fails, with the machine as
that step left it (`run_of_failure`). Every run is one of the two (`run_cases`). The machines at
which its steps begin are its trail (`Machine.trail`). What every step keeps, runs keep, and what
counts of the timers keep as well, ticks keep (`run_keeps`, `ticks_keeps`). A clock does nothing to
its runner but let it tick (`beats_eq_ticks`).

As a fault leaves no trace on the machine, a batch that comes to a fault leaves the machine as the
steps before the fault left it, and no count of the timers follows (`faults_are_atomic`).
-/

namespace Chip8

namespace Machine

variable {m reached : Machine} {j n : Nat} {f : Fault} {e : Interruption}

/-- The machine after a number of steps, if all of them succeed. -/
def after? (m : Machine) : Nat → Option Machine
  | 0 => some m
  | count + 1 =>
      (m.after? count).bind fun reached => reached.step.value.toOption.map Prod.snd

theorem after?_succ {next : Machine} :
    m.after? (n + 1) = some next ↔
      ∃ reached i, m.after? n = some reached ∧ reached.step.value = .ok (i, next) := by
  simp only [after?]
  cases m.after? n with
  | none => simp
  | some reached =>
      cases result : reached.step.value with
      | ok done =>
          obtain ⟨i, after⟩ := done
          simp [result, Except.toOption]
      | error stop => simp [result, Except.toOption]

/-- If not all steps succeed, there is a first that fails. -/
theorem first_failure (ends : m.after? n = none) :
    ∃ j, j < n ∧ ∃ reached e, m.after? j = some reached ∧ reached.step.value = .error e := by
  induction n with
  | zero => cases ends
  | succ n ih =>
      cases before : m.after? n with
      | none =>
          obtain ⟨j, within, failure⟩ := ih before
          exact ⟨j, by omega, failure⟩
      | some reached =>
          cases result : reached.step.value with
          | ok done =>
              rw [after?_succ.mpr ⟨reached, done.1, before, result⟩] at ends
              cases ends
          | error stop => exact ⟨n, by omega, reached, stop, before, result⟩

/-- The machines at which the steps of a run begin, as far as the run succeeds. -/
def trail (m : Machine) (n : Nat) : List Machine :=
  (List.range n).filterMap m.after?

theorem trail_succ (all : m.after? n = some reached) :
    m.trail (n + 1) = m.trail n ++ [reached] := by
  simp [trail, List.range_succ, List.filterMap_append, all]

/-- Behind a step that fails no step begins. -/
theorem trail_succ_of_none (ends : m.after? n = none) : m.trail (n + 1) = m.trail n := by
  simp [trail, List.range_succ, List.filterMap_append, ends]

end Machine

namespace Run

variable {run : Run}

theorem ended_eq_false_iff : run.ended = false ↔ run.fault = none ∧ run.broken = none := by
  simp [ended]

theorem step_of_ended (ended : run.ended = true) : run.step = run := by
  rw [step, if_pos ended]

/-- A step that succeeds is counted. -/
theorem step_of_ok {i : Instruction} {after : Machine} (going : run.ended = false)
    (result : run.machine.step.value = .ok (i, after)) :
    run.step.machine = after ∧ run.step.fault = none ∧ run.step.broken = none ∧
      run.step.done = run.done + 1 := by
  obtain ⟨fault, broken⟩ := ended_eq_false_iff.mp going
  simp only [step, take, going, result]
  exact ⟨rfl, fault, broken, rfl⟩

/-- A step that fails ends the run and is not counted. -/
theorem step_of_error {e : Interruption} (going : run.ended = false)
    (result : run.machine.step.value = .error e) :
    run.step.machine = e.left ∧ run.step.fault = e.cause.fault? ∧
      run.step.broken = e.cause.notAByte? ∧ run.step.done = run.done := by
  simp only [step, take, going, result]
  exact ⟨rfl, rfl, rfl, rfl⟩

/-- Whatever comes of a step, the run goes on from the machine as the step left it. -/
theorem step_machine (going : run.ended = false) : run.step.machine = run.machine.stepped := by
  unfold Machine.stepped
  cases result : run.machine.step.value with
  | ok done => exact (step_of_ok going result).1
  | error stop => exact (step_of_error going result).1

theorem steps_of_ended (ended : run.ended = true) (n : Nat) : steps n run = run := by
  cases n with
  | zero => rfl
  | succ n => rw [steps, if_pos ended]

/-- The last of a number of steps can be taken apart. -/
theorem steps_succ (n : Nat) (run : Run) : steps (n + 1) run = (steps n run).step := by
  induction n generalizing run with
  | zero =>
      by_cases ended : run.ended = true
      · rw [steps_of_ended ended, steps, step_of_ended ended]
      · simp only [steps, if_neg ended]
  | succ n ih =>
      by_cases ended : run.ended = true
      · rw [steps_of_ended ended, steps_of_ended ended, step_of_ended ended]
      · rw [steps, if_neg ended, ih run.step, steps, if_neg ended]

theorem steps_add (a b : Nat) (run : Run) : steps (a + b) run = steps b (steps a run) := by
  induction b with
  | zero => rfl
  | succ b ih => rw [← Nat.add_assoc, steps_succ, steps_succ, ih]

end Run

namespace Machine

variable {m reached : Machine} {j n : Nat} {f : Fault} {e : Interruption}

theorem run_succ (m : Machine) (n : Nat) : m.run (n + 1) = (m.run n).step :=
  Run.steps_succ n _

/-- The steps behind the end of a run change nothing. -/
theorem run_of_ended (ended : (m.run j).ended = true) (within : j ≤ n) : m.run n = m.run j := by
  rw [← Nat.add_sub_cancel' within]
  exact (Run.steps_add j _ _).trans (Run.steps_of_ended ended _)

/-- A run whose steps all succeed goes all the way. -/
theorem run_of_after (all : m.after? n = some reached) :
    (m.run n).machine = reached ∧ (m.run n).fault = none ∧ (m.run n).broken = none ∧
      (m.run n).done = n := by
  induction n generalizing reached with
  | zero =>
      cases all
      exact ⟨rfl, rfl, rfl, rfl⟩
  | succ n ih =>
      obtain ⟨before, i, start, result⟩ := after?_succ.mp all
      obtain ⟨machine, fault, broken, done⟩ := ih start
      have going := Run.ended_eq_false_iff.mpr ⟨fault, broken⟩
      rw [← machine] at result
      rw [run_succ]
      simpa only [done] using Run.step_of_ok going result

/-- A run ends at the first step that fails, with the machine as that step left it. -/
theorem run_of_failure (start : m.after? j = some reached) (failed : reached.step.value = .error e)
    (within : j < n) :
    (m.run n).machine = e.left ∧ (m.run n).fault = e.cause.fault? ∧
      (m.run n).broken = e.cause.notAByte? ∧ (m.run n).done = j := by
  have last : (m.run (j + 1)).machine = e.left ∧ (m.run (j + 1)).fault = e.cause.fault? ∧
      (m.run (j + 1)).broken = e.cause.notAByte? ∧ (m.run (j + 1)).done = j := by
    obtain ⟨machine, fault, broken, done⟩ := run_of_after start
    have going := Run.ended_eq_false_iff.mpr ⟨fault, broken⟩
    rw [← machine] at failed
    rw [run_succ]
    simpa only [done] using Run.step_of_error going failed
  have ended : (m.run (j + 1)).ended = true := by
    obtain ⟨-, fault, broken, -⟩ := last
    rw [Run.ended, fault, broken]
    cases e.cause <;> rfl
  rw [run_of_ended ended within]
  exact last

/-- Every run goes all the way or ends at a step that fails. -/
theorem run_cases (m : Machine) (n : Nat) :
    (∃ reached, m.after? n = some reached) ∨
      ∃ j, j < n ∧ ∃ reached e, m.after? j = some reached ∧ reached.step.value = .error e := by
  cases all : m.after? n with
  | none => exact .inr (first_failure all)
  | some reached => exact .inl ⟨reached, rfl⟩

/-- A run that does not go all the way has ended. -/
theorem run_ended (ends : m.after? n = none) : (m.run n).ended = true := by
  obtain ⟨j, within, reached, e, start, failed⟩ := first_failure ends
  obtain ⟨-, fault, broken, -⟩ := run_of_failure start failed within
  rw [Run.ended, fault, broken]
  cases e.cause <;> rfl

/-- What every step keeps, a run keeps. -/
theorem run_keeps {P : Machine → Prop} (step : ∀ m : Machine, P m → P m.stepped) (start : P m)
    (n : Nat) : P (m.run n).machine := by
  induction n with
  | zero => exact start
  | succ n ih =>
      rw [run_succ]
      by_cases ended : (m.run n).ended = true
      · rw [Run.step_of_ended ended]
        exact ih
      · rw [Run.step_machine (by simpa using ended)]
        exact step _ ih

/-- A well-formed machine never stores a number that is no byte, so nothing breaks its runs off. -/
theorem run_unbroken (wf : m.WellFormed) (n : Nat) : (m.run n).broken = none := by
  induction n with
  | zero => rfl
  | succ n ih =>
      have kept : (m.run n).machine.WellFormed := run_keeps (fun _ wf => wf.stepped) wf n
      rw [run_succ]
      cases unended : (m.run n).ended with
      | true => rw [Run.step_of_ended unended, ih]
      | false =>
          cases result : (m.run n).machine.step.value with
          | ok done => exact (Run.step_of_ok unended result).2.2.1
          | error e =>
              obtain ⟨f, -, rfl⟩ := kept.step_error result
              exact (Run.step_of_error unended result).2.2.1

/-! ### Runs that come to a fault -/

/-- A number of steps succeed and lead to a machine whose next step comes to a fault. -/
structure FaultsAfter (m : Machine) (j : Nat) (reached : Machine) (f : Fault) : Prop where
  start : m.after? j = some reached
  failed : ∃ e, reached.step.value = .error e ∧ e.cause = .fault f

/-- The steps before a fault are all that a run does. -/
theorem FaultsAfter.run (faults : m.FaultsAfter j reached f) (within : j < n) :
    (m.run n).machine = reached ∧ (m.run n).fault = some f ∧ (m.run n).broken = none := by
  obtain ⟨start, e, failed, cause⟩ := faults
  obtain ⟨machine, fault, broken, -⟩ := run_of_failure start failed within
  obtain ⟨-, left⟩ := left_of_fault failed cause
  rw [cause] at fault broken
  exact ⟨machine.trans left, fault, broken⟩

/-- A run with a fault came to it behind some of its steps. -/
theorem exists_faultsAfter (fault : (m.run n).fault = some f) :
    ∃ j, j < n ∧ ∃ reached, m.FaultsAfter j reached f := by
  rcases run_cases m n with ⟨reached, all⟩ | ⟨j, within, reached, e, start, failed⟩
  · obtain ⟨-, none, -, -⟩ := run_of_after all
    rw [none] at fault
    cases fault
  · obtain ⟨-, same, -, -⟩ := run_of_failure start failed within
    rw [same] at fault
    refine ⟨j, within, reached, start, e, failed, ?_⟩
    cases cause : e.cause with
    | fault g =>
        rw [cause] at fault
        cases fault
        rfl
    | notAByte n =>
        rw [cause] at fault
        cases fault

end Machine

namespace Stint

variable {s : Stint} {f : Fault}

/-- Work can go on exactly if nothing broke it off and no fault is left. -/
theorem goesOn_iff : s.goesOn = true ↔ s.broken = none ∧ s.runner.fault = none := by
  simp only [goesOn, Runner.running, Bool.and_eq_true, Option.isNone_iff_eq_none]

theorem goesOn_of_fault (fault : s.runner.fault = some f) : s.goesOn = false := by
  simp [goesOn, Runner.running, fault]

theorem andThen_of_goesOn (goesOn : s.goesOn = true) (more : Runner → Stint) :
    s.andThen more = more s.runner :=
  if_pos goesOn

theorem andThen_of_ended (ended : s.goesOn = false) (more : Runner → Stint) :
    s.andThen more = s := by
  rw [andThen, ended, if_neg Bool.false_ne_true]

/-- A stint of work came to a fault and left the machine as given. -/
structure StoppedAt (s : Stint) (reached : Machine) (f : Fault) : Prop where
  machine : s.runner.machine = reached
  fault : s.runner.fault = some f
  unbroken : s.broken = none

end Stint

namespace Runner

variable {r : Runner} {j n : Nat} {reached : Machine} {f : Fault}

/-- A batch of a runner without a fault is a run of its machine. -/
theorem batch_of_running (running : r.fault = none) (n : Nat) :
    (r.batch n).runner.machine = (r.machine.run n).machine ∧
      (r.batch n).runner.fault = (r.machine.run n).fault ∧
      (r.batch n).broken = (r.machine.run n).broken := by
  simp [batch, running]

/-- A batch whose steps all succeed ends with the machine behind them. -/
theorem batch_of_after (running : r.fault = none) (all : r.machine.after? n = some reached) :
    (r.batch n).runner.machine = reached ∧ (r.batch n).runner.fault = none ∧
      (r.batch n).broken = none := by
  obtain ⟨machine, fault, broken, -⟩ := Machine.run_of_after all
  obtain ⟨sameMachine, sameFault, sameBroken⟩ := batch_of_running running n
  exact ⟨sameMachine.trans machine, sameFault.trans fault, sameBroken.trans broken⟩

theorem batch_of_faultsAfter (running : r.fault = none)
    (faults : r.machine.FaultsAfter j reached f) (within : j < n) :
    (r.batch n).StoppedAt reached f := by
  obtain ⟨machine, fault, broken⟩ := faults.run within
  obtain ⟨sameMachine, sameFault, sameBroken⟩ := batch_of_running running n
  exact ⟨sameMachine.trans machine, sameFault.trans fault, sameBroken.trans broken⟩

theorem exists_faultsAfter_of_batch (running : r.fault = none)
    (fault : (r.batch n).runner.fault = some f) :
    ∃ j, j < n ∧ ∃ reached, r.machine.FaultsAfter j reached f := by
  rw [(batch_of_running running n).2.1] at fault
  exact Machine.exists_faultsAfter fault

theorem advance_of_paused (paused : r.machine.paused = true) (count : Int) :
    r.advance count = { runner := r } :=
  if_pos paused

theorem advance_of_unpaused (unpaused : r.machine.paused = false) (count : Int) :
    r.advance count = r.batch count.toNat := by
  simp [advance, unpaused]

theorem tick_of_paused (paused : r.machine.paused = true) : r.tick = { runner := r } :=
  if_pos paused

/-- A tick is a batch, and a count of the timers if the work can go on behind it. -/
theorem tick_of_unpaused (unpaused : r.machine.paused = false) :
    r.tick = if (r.batch r.cycles).goesOn then { runner := (r.batch r.cycles).runner.countDown }
      else r.batch r.cycles := by
  simp [tick, unpaused, Stint.andThen]

theorem tick_of_goesOn (unpaused : r.machine.paused = false)
    (goesOn : (r.batch r.cycles).goesOn = true) :
    r.tick = { runner := (r.batch r.cycles).runner.countDown } := by
  rw [tick_of_unpaused unpaused, if_pos goesOn]

theorem tick_of_ended (unpaused : r.machine.paused = false)
    (ended : (r.batch r.cycles).goesOn = false) : r.tick = r.batch r.cycles := by
  rw [tick_of_unpaused unpaused, ended, if_neg Bool.false_ne_true]

/-- A tick leaves a paused machine alone; else it is a batch, and the timers are counted down behind
it only if nothing ended the batch. -/
theorem tick_cases (r : Runner) :
    (r.machine.paused = true ∧ r.tick = { runner := r }) ∨
      ((r.batch r.cycles).broken = none ∧ (r.batch r.cycles).runner.fault = none ∧
        r.tick = { runner := (r.batch r.cycles).runner.countDown }) ∨
      r.tick = r.batch r.cycles := by
  cases paused : r.machine.paused with
  | true => exact .inl ⟨rfl, tick_of_paused paused⟩
  | false =>
      cases goesOn : (r.batch r.cycles).goesOn with
      | true =>
          obtain ⟨broken, fault⟩ := Stint.goesOn_iff.mp goesOn
          exact .inr (.inl ⟨broken, fault, tick_of_goesOn paused goesOn⟩)
      | false => exact .inr (.inr (tick_of_ended paused goesOn))

/-- A tick whose steps all succeed ends with a count of the timers behind them. -/
theorem tick_of_after (unpaused : r.machine.paused = false) (running : r.fault = none)
    (all : r.machine.after? r.cycles = some reached) :
    r.tick.runner.machine = reached.countDown ∧ r.tick.runner.fault = none ∧
      r.tick.broken = none := by
  obtain ⟨machine, fault, broken⟩ := batch_of_after running all
  rw [tick_of_goesOn unpaused (Stint.goesOn_iff.mpr ⟨broken, fault⟩)]
  exact ⟨congrArg Machine.countDown machine, fault, rfl⟩

/-- The timers are not counted down behind a fault. -/
theorem tick_of_fault (unpaused : r.machine.paused = false)
    (fault : (r.batch r.cycles).runner.fault = some f) : r.tick = r.batch r.cycles :=
  tick_of_ended unpaused (Stint.goesOn_of_fault fault)

theorem batch_unbroken (wf : r.machine.WellFormed) (n : Nat) : (r.batch n).broken = none := by
  cases stopped : r.fault with
  | some f => simp only [batch, stopped]
  | none => rw [(batch_of_running stopped n).2.2, Machine.run_unbroken wf]

theorem tick_unbroken (wf : r.machine.WellFormed) : r.tick.broken = none := by
  rcases tick_cases r with ⟨-, tick⟩ | ⟨-, -, tick⟩ | tick
  · rw [tick]
  · rw [tick]
  · rw [tick]
    exact batch_unbroken wf _

/-- Ticks have at least one instruction, so a new runner can be given ticks of the same length. -/
theorem new_cycles (r : Runner) (m : Machine) : (new m r.cycles).cycles = r.cycles := by
  have some := r.cycles_pos
  change max 1 (r.cycles : Int).toNat = r.cycles
  omega

theorem batch_cycles (r : Runner) (n : Nat) : (r.batch n).runner.cycles = r.cycles := by
  unfold batch
  split <;> rfl

/-- A tick does not touch the length of ticks. -/
theorem tick_cycles (r : Runner) : r.tick.runner.cycles = r.cycles := by
  rcases tick_cases r with ⟨-, tick⟩ | ⟨-, -, tick⟩ | tick
  · rw [tick]
  · rw [tick]
    exact batch_cycles r r.cycles
  · rw [tick]
    exact batch_cycles r r.cycles

/-- Counting the timers down does not touch the fault. -/
theorem tick_fault (unpaused : r.machine.paused = false) :
    r.tick.runner.fault = (r.batch r.cycles).runner.fault := by
  rw [tick_of_unpaused unpaused]
  split <;> rfl

/-! ### What steps and counts of the timers keep -/

section Keeping

variable {P : Machine → Prop} (step : ∀ m : Machine, P m → P m.stepped)
  (count : ∀ m : Machine, P m → P m.countDown)

include step in
theorem batch_keeps (start : P r.machine) (n : Nat) : P (r.batch n).runner.machine := by
  cases running : r.fault with
  | none =>
      rw [(batch_of_running running n).1]
      exact Machine.run_keeps step start n
  | some f =>
      simp only [batch, running]
      exact start

include step in
theorem advance_keeps (start : P r.machine) (count : Int) :
    P (r.advance count).runner.machine := by
  unfold advance
  split
  · exact start
  · exact batch_keeps step start count.toNat

include step count in
theorem tick_keeps (start : P r.machine) : P r.tick.runner.machine := by
  have worked := batch_keeps step start r.cycles
  rcases tick_cases r with ⟨-, tick⟩ | ⟨-, -, tick⟩ | tick
  · rw [tick]
    exact start
  · rw [tick]
    exact count _ worked
  · rw [tick]
    exact worked

include step count in
theorem ticks_keeps (start : P r.machine) (n : Nat) : P (ticks n r).runner.machine := by
  induction n generalizing r with
  | zero => exact start
  | succ n ih =>
      have ticked := tick_keeps step count start
      rw [ticks, Stint.andThen]
      split
      · exact ih ticked
      · exact ticked

end Keeping

/-! ### The clock -/

theorem ticks_of_goesOn (goesOn : r.tick.goesOn = true) :
    ticks (n + 1) r = ticks n r.tick.runner := by
  rw [ticks, Stint.andThen_of_goesOn goesOn]

theorem ticks_of_ended (ended : r.tick.goesOn = false) : ticks (n + 1) r = r.tick := by
  rw [ticks, Stint.andThen_of_ended ended]

theorem ticks_one (r : Runner) : ticks 1 r = r.tick := by
  cases goesOn : r.tick.goesOn with
  | true =>
      obtain ⟨unbroken, -⟩ := Stint.goesOn_iff.mp goesOn
      rw [ticks_of_goesOn goesOn, ticks, ← unbroken]
  | false => exact ticks_of_ended goesOn

section Beats

variable {clock : Clock} {period : Float} {pace : Pace}

theorem beats_of_goesOn (goesOn : r.tick.goesOn = true)
    (allowed : clock.refuses (clock.delay period pace) = false) :
    beats clock period (n + 1) pace r =
      beats clock period n (clock.next period pace) r.tick.runner := by
  simp only [beats, goesOn, allowed, Bool.false_eq_true, if_true, if_false]

theorem beats_of_refused (goesOn : r.tick.goesOn = true)
    (refuses : clock.refuses (clock.delay period pace) = true) :
    beats clock period (n + 1) pace r =
      { stint := r.tick, refused := some (clock.delay period pace) } := by
  simp only [beats, goesOn, refuses, if_true]

theorem beats_of_ended (ended : r.tick.goesOn = false) :
    beats clock period (n + 1) pace r = { stint := r.tick } := by
  simp only [beats, ended, Bool.false_eq_true, if_false]

end Beats

/-- What a clock lets its runner do are ticks in a row, whatever its watch shows. -/
theorem beats_eq_ticks (clock : Clock) (period : Float) (count : Nat) (pace : Pace) (r : Runner) :
    ∃ j ≤ count, (beats clock period count pace r).stint = ticks j r := by
  induction count generalizing pace r with
  | zero => exact ⟨0, Nat.le_refl 0, rfl⟩
  | succ count ih =>
      have one : 1 ≤ count + 1 := Nat.le_add_left 1 count
      cases goesOn : r.tick.goesOn with
      | false => exact ⟨1, one, by rw [beats_of_ended goesOn, ticks_one]⟩
      | true =>
          cases refuses : clock.refuses (clock.delay period pace) with
          | true => exact ⟨1, one, by rw [beats_of_refused goesOn refuses, ticks_one]⟩
          | false =>
              obtain ⟨j, within, same⟩ := ih (clock.next period pace) r.tick.runner
              refine ⟨j + 1, Nat.succ_le_succ within, ?_⟩
              rw [beats_of_goesOn goesOn refuses, same, ticks_of_goesOn goesOn]

theorem perform_run_eq_ticks (r : Runner) (checks : Nat) (clock : Clock) (rate : Quantity) :
    ∃ j ≤ checks, r.perform (.run checks clock rate) = (ticks j r).runner := by
  simp only [perform, run]
  cases RateError.ofRate? rate with
  | some e => exact ⟨0, Nat.zero_le _, rfl⟩
  | none =>
      obtain ⟨j, within, same⟩ := beats_eq_ticks clock (1.0 / rate.toFloat) checks clock.start r
      exact ⟨j, within, congrArg Stint.runner same⟩

/-! ### Atomicity -/

/-- Faults are atomic. Whatever a machine holds, a step that comes to a fault leaves every part of
it as it was. So an advance or a tick of a runner that is neither paused nor stopped, if it comes to
a fault behind `j` steps, leaves the machine exactly as these steps left it, with the timers not
counted down, and remembers that fault; and it comes to remember a fault in no other way. -/
theorem faults_are_atomic :
    (∀ (m : Machine) (e : Interruption) (f : Fault),
        m.step.value = .error e → e.cause = .fault f → e.left = m) ∧
      ∀ r : Runner, r.machine.paused = false → r.fault = none →
        (∀ (j : Nat) (reached : Machine) (f : Fault), r.machine.FaultsAfter j reached f →
          (∀ count : Int, j < count → (r.advance count).StoppedAt reached f) ∧
          (j < r.cycles → r.tick.StoppedAt reached f)) ∧
        (∀ (count : Int) (f : Fault), (r.advance count).runner.fault = some f →
          ∃ j : Nat, j < count ∧ ∃ reached, r.machine.FaultsAfter j reached f) ∧
        ∀ f : Fault, r.tick.runner.fault = some f →
          ∃ j, j < r.cycles ∧ ∃ reached, r.machine.FaultsAfter j reached f := by
  constructor
  · intro m e f failed cause
    exact (Machine.left_of_fault failed cause).2
  · intro r unpaused running
    refine ⟨?_, ?_, ?_⟩
    · intro j reached f faults
      constructor
      · intro count within
        rw [advance_of_unpaused unpaused]
        exact batch_of_faultsAfter running faults (by omega)
      · intro within
        have stopped := batch_of_faultsAfter running faults within
        rw [tick_of_fault unpaused stopped.fault]
        exact stopped
    · intro count f fault
      rw [advance_of_unpaused unpaused] at fault
      obtain ⟨j, within, rest⟩ := exists_faultsAfter_of_batch running fault
      exact ⟨j, by omega, rest⟩
    · intro f fault
      rw [tick_fault unpaused] at fault
      exact exists_faultsAfter_of_batch running fault

def strayReturn : Machine :=
  { Machine.fresh {} .silent with
    memory := Machine.initialMemory.store Machine.origin [0x60, 0x05, 0x00, 0xEE], delay := 7 }

set_option maxRecDepth 8000 in
theorem strayReturn_stops :
    (new strayReturn 10).tick.StoppedAt
      { strayReturn with pc := 0x202, registers := strayReturn.registers.set 0 5 }
      (.stackUnderflow 0x202) := by
  obtain ⟨-, driven⟩ := faults_are_atomic
  obtain ⟨stops, -⟩ := driven (new strayReturn 10) rfl rfl
  exact (stops 1 _ _ ⟨rfl, _, rfl, rfl⟩).2 (by decide)

end Runner

end Chip8
