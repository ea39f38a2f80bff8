import Chip8.Proofs.Runs

/-!
The fault that a runner remembers. It is true: the next step of the machine comes to just that fault
(`Runner.Truthful`). It is kept: while it stands, ticks and advances of any length leave the runner
as it is, and of all operations only a change to a program that fits ends it (`perform_fault`).

Truth has to survive what a client may do between the ticks. A fault hangs on the program counter,
the memory, the stack and the mode alone (`Machine.Fails.frame`), so neither keys nor a pause make
it untrue; an operation on the machine itself could, so truth is claimed of the operations that go
through the runner (`Operation.viaRunner`).
-/

namespace Chip8

namespace Operation

/-- Does an operation go through the runner? The others change the machine behind its back. -/
def viaRunner : Operation → Bool
  | .tick | .advance _ | .togglePause | .act _ | .run _ _ _ | .switchProgram _ _ => true
  | .step | .countDown | .reset | .loadFont | .load _ => false

end Operation

namespace Machine

/-- The keypad and the pause do not matter to a fault. -/
theorem Fails.frame {m : Machine} {f : Fault} (fails : m.Fails f) (keypad : Keypad)
    (paused : Bool) : { m with keypad := keypad, paused := paused }.Fails f := by
  cases fails with
  | overrun outside => exact .overrun outside
  | stackOverflow inside call full => exact .stackOverflow inside call full
  | stackUnderflow inside ret empty => exact .stackUnderflow inside ret empty
  | malformed inside strict malformed => exact .malformed inside strict malformed

/-- The machine that a fault stopped is one whose next step comes to that fault. -/
theorem run_fails {m : Machine} {n : Nat} {f : Fault} (fault : (m.run n).fault = some f) :
    (m.run n).machine.Fails f := by
  obtain ⟨j, within, reached, faults⟩ := exists_faultsAfter fault
  obtain ⟨e, failed, cause⟩ := faults.failed
  rw [(faults.run within).1]
  exact (left_of_fault failed cause).1

/-- A program makes a fresh machine differ in its memory alone. -/
theorem ofProgram_frame {mode : Mode} {noise : Noise} {program : List Byte} {m : Machine}
    (made : ofProgram mode noise program = .ok m) :
    m = { fresh mode noise with memory := m.memory } := by
  unfold ofProgram load at made
  split at made <;> cases made
  rfl

end Machine

namespace Runner

variable {r : Runner} {f : Fault}

/-! ### A stopped runner stays as it is -/

theorem batch_of_stopped (stopped : r.fault = some f) (n : Nat) : r.batch n = { runner := r } := by
  simp only [batch, stopped]

theorem running_of_stopped (stopped : r.fault = some f) : r.running = false := by
  simp [running, stopped]

theorem advance_of_stopped (stopped : r.fault = some f) (count : Int) :
    r.advance count = { runner := r } := by
  unfold advance
  split
  · rfl
  · exact batch_of_stopped stopped _

/-- Work that a fault ended does not go on, so the timers are not counted down either. -/
theorem tick_of_stopped (stopped : r.fault = some f) : r.tick = { runner := r } := by
  by_cases paused : r.machine.paused = true
  · exact tick_of_paused paused
  · have batch := batch_of_stopped stopped r.cycles
    rw [tick_of_fault (by simpa using paused) (by rw [batch]; exact stopped), batch]

theorem ticks_of_stopped (stopped : r.fault = some f) (n : Nat) :
    ticks n r = { runner := r } := by
  cases n with
  | zero => rfl
  | succ n =>
      rw [ticks, tick_of_stopped stopped, Stint.andThen_of_ended (Stint.goesOn_of_fault stopped)]

theorem perform_run_of_stopped (stopped : r.fault = some f) (checks : Nat) (clock : Clock)
    (rate : Quantity) : r.perform (.run checks clock rate) = r := by
  obtain ⟨j, -, same⟩ := r.perform_run_eq_ticks checks clock rate
  rw [same, ticks_of_stopped stopped]

/-! ### Changes of the program -/

/-- The machine that a program makes replaces the old one, and no fault is left. -/
theorem switchProgram_of_made {program : List Byte} {noise : Noise} {m : Machine}
    (made : Machine.ofProgram r.machine.mode noise program = .ok m) :
    r.switchProgram program noise = .ok ({ r with machine := m, fault := none }.note
      [.programLoaded program.length, .programSwitched program.length]) := by
  rw [switchProgram, made]
  rfl

/-- A program is taken exactly if it fits, and then no fault is left. -/
theorem switchProgram_of_fits {program : List Byte} (fits : program.length ≤ Machine.programLimit)
    (noise : Noise) :
    ∃ switched, r.switchProgram program noise = .ok switched ∧ switched.fault = none :=
  ⟨_, switchProgram_of_made (if_pos fits), rfl⟩

theorem switchProgram_of_tooLarge {program : List Byte}
    (long : Machine.programLimit < program.length) (noise : Noise) :
    r.switchProgram program noise = .error ⟨program.length⟩ := by
  have refused : Machine.ofProgram r.machine.mode noise program =
      .error ⟨program.length⟩ := if_neg (by omega)
  simp only [switchProgram, refused]
  rfl

/-- A fault stands through every operation but a change to a program that fits. -/
theorem perform_fault (stopped : r.fault = some f) (o : Operation) :
    (r.perform o).fault = some f ∨
      ∃ program noise, o = .switchProgram program noise ∧
        program.length ≤ Machine.programLimit ∧ (r.perform o).fault = none := by
  cases o with
  | step | countDown | act action | reset | loadFont | togglePause =>
      left
      simp only [perform, withMachine, act, togglePause, note, stopped]
  | load program =>
      left
      simp only [perform]
      split <;> simp only [withMachine, note, stopped]
  | tick =>
      left
      rw [perform, tick_of_stopped stopped]
      exact stopped
  | advance count =>
      left
      rw [perform, advance_of_stopped stopped]
      exact stopped
  | run checks clock rate =>
      left
      rw [perform_run_of_stopped stopped]
      exact stopped
  | switchProgram program noise =>
      by_cases fits : program.length ≤ Machine.programLimit
      · obtain ⟨switched, accepted, ended⟩ := switchProgram_of_fits (r := r) fits noise
        refine .inr ⟨program, noise, rfl, fits, ?_⟩
        simp only [perform, accepted, ended]
      · left
        simp only [perform, switchProgram_of_tooLarge (r := r) (Nat.lt_of_not_le fits), stopped]

/-! ### Remembered faults are true -/

/-- The fault that a runner remembers, if any, is what the next step of its machine comes to. -/
def Truthful (r : Runner) : Prop :=
  ∀ f, r.fault = some f → r.machine.Fails f

namespace Truthful

theorem of_running (running : r.fault = none) : r.Truthful := by
  intro f stopped
  rw [running] at stopped
  cases stopped

theorem batch (truthful : r.Truthful) (n : Nat) : (r.batch n).runner.Truthful := by
  cases running : r.fault with
  | some f =>
      rw [batch_of_stopped running]
      exact truthful
  | none =>
      obtain ⟨machine, fault, -⟩ := batch_of_running running n
      intro f stopped
      rw [fault] at stopped
      rw [machine]
      exact Machine.run_fails stopped

theorem advance (truthful : r.Truthful) (count : Int) : (r.advance count).runner.Truthful := by
  unfold Runner.advance
  split
  · exact truthful
  · exact truthful.batch _

/-- The timers are counted down only where no fault is remembered. -/
theorem tick (truthful : r.Truthful) : r.tick.runner.Truthful := by
  rcases tick_cases r with ⟨-, tick⟩ | ⟨-, running, tick⟩ | tick
  · rw [tick]
    exact truthful
  · rw [tick]
    exact of_running running
  · rw [tick]
    exact truthful.batch _

theorem ticks (truthful : r.Truthful) (n : Nat) : (ticks n r).runner.Truthful := by
  induction n generalizing r with
  | zero => exact truthful
  | succ n ih =>
      rw [Runner.ticks, Stint.andThen]
      split
      · exact ih truthful.tick
      · exact truthful.tick

theorem perform (truthful : r.Truthful) {o : Operation} (driven : o.viaRunner = true) :
    (r.perform o).Truthful := by
  cases o with
  | step | countDown | reset | loadFont | load program => cases driven
  | act action => exact fun f stopped => (truthful f stopped).frame _ _
  | togglePause => exact fun f stopped => (truthful f stopped).frame _ _
  | tick => exact truthful.tick
  | advance count => exact truthful.advance count
  | run checks clock rate =>
      obtain ⟨j, -, same⟩ := r.perform_run_eq_ticks checks clock rate
      rw [same]
      exact truthful.ticks j
  | switchProgram program noise =>
      by_cases fits : program.length ≤ Machine.programLimit
      · obtain ⟨switched, accepted, ended⟩ := switchProgram_of_fits (r := r) fits noise
        simp only [Runner.perform, accepted]
        exact of_running ended
      · simp only [Runner.perform, switchProgram_of_tooLarge (r := r) (Nat.lt_of_not_le fits)]
        exact truthful

theorem performAll (truthful : r.Truthful) {operations : List Operation}
    (driven : ∀ o ∈ operations, o.viaRunner = true) : (r.performAll operations).Truthful := by
  induction operations generalizing r with
  | nil => exact truthful
  | cons o rest ih =>
      have first := driven o List.mem_cons_self
      exact ih (truthful.perform first) fun other mem => driven other (List.mem_cons_of_mem _ mem)

end Truthful

/-- A remembered fault is true and is kept. Whatever machine a runner starts from and whatever is
then done through the runner: if a fault is remembered, the next step of the machine comes to that
fault; ticks, advances and runs leave the runner as it is, which is not running; and no operation
but a change to a program that fits ends the fault. A runner that remembers no fault is running. -/
theorem remembered_fault_is_due (m : Machine) (cycles : Int) (operations : List Operation)
    (driven : ∀ o ∈ operations, o.viaRunner = true) :
    let r := (new m cycles).performAll operations
    (r.fault = none → r.running = true) ∧
      ∀ f, r.fault = some f →
        r.machine.step.value = .error ⟨.fault f, r.machine⟩ ∧
        r.running = false ∧
        r.tick = { runner := r } ∧
        (∀ count, r.advance count = { runner := r }) ∧
        (∀ checks clock rate, r.perform (.run checks clock rate) = r) ∧
        ∀ o, (r.perform o).fault = some f ∨
          ∃ program noise, o = .switchProgram program noise ∧ program.length ≤ 3584 ∧
            (r.perform o).fault = none := by
  intro r
  have start : (new m cycles).Truthful := .of_running rfl
  have truthful : r.Truthful := start.performAll driven
  constructor
  · intro none
    simp [running, none]
  · intro f stopped
    exact ⟨(truthful f stopped).step, running_of_stopped stopped, tick_of_stopped stopped,
      advance_of_stopped stopped, perform_run_of_stopped stopped, perform_fault stopped⟩

def afterStrayReturn : List Operation :=
  [.tick, .togglePause, .act (.press 5), .switchProgram (List.replicate 3585 0) .silent, .advance 7,
    .togglePause, .run 3 ⟨fun _ => 0, none⟩ (.whole 60)]

theorem strayReturn_stays_due :
    (∀ o ∈ afterStrayReturn, o.viaRunner = true) ∧
      let r := (new strayReturn 10).performAll afterStrayReturn
      r.fault = some (.stackUnderflow 0x202) ∧
        r.machine.step.value = .error ⟨.fault (.stackUnderflow 0x202), r.machine⟩ ∧
        r.tick = { runner := r } := by
  have driven : ∀ o ∈ afterStrayReturn, o.viaRunner = true := by decide
  have stopped : ((new strayReturn 10).performAll afterStrayReturn).fault =
      some (.stackUnderflow 0x202) := by decide +kernel
  obtain ⟨-, kept⟩ := remembered_fault_is_due strayReturn 10 afterStrayReturn driven
  obtain ⟨due, -, tick, -⟩ := kept _ stopped
  exact ⟨driven, stopped, due, tick⟩

end Runner

end Chip8
