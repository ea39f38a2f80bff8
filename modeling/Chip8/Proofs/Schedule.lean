import Chip8.Proofs.Runs

/-!
Work without a window against a flat schedule. `Runner.headless` splits a number of steps into whole
ticks and a rest. `Schedule.beats` knows neither ticks nor batches: it takes single steps, counts
the timers down behind every step whose number the length of a tick divides, and stops at the first
step that fails. The two end with the same machine and the same fault (`headless_eq_beats`).

The proof follows a run and a schedule through a stretch without a count of the timers
(`Agree.stretch`), then through one tick, whose last step is the only one behind which they are
counted down (`tick_meets`), then through any number of ticks and the rest. `Accounted` says what a
schedule has done by then.
-/

namespace Chip8

/-- A machine under a schedule: the machine now, the steps that succeeded, the counts of the timers,
and what stopped it. -/
structure Schedule where
  machine : Machine
  done : Nat := 0
  counted : Nat := 0
  stop : Option Cause := none

namespace Schedule

def fault (s : Schedule) : Option Fault :=
  s.stop.bind Cause.fault?

def broken (s : Schedule) : Option NotAByte :=
  s.stop.bind Cause.notAByte?

/-- One step more, with a count of the timers behind it if `cycles` divides its number. -/
def beat (cycles : Nat) (s : Schedule) : Schedule :=
  match s.stop with
  | some _ => s
  | none =>
      match s.machine.step.value with
      | .error i => { s with machine := i.left, stop := some i.cause }
      | .ok (_, after) =>
          if cycles ∣ s.done + 1 then
            { s with machine := after.countDown, done := s.done + 1, counted := s.counted + 1 }
          else { s with machine := after, done := s.done + 1 }

def beats (cycles : Nat) : Nat → Schedule → Schedule
  | 0, s => s
  | count + 1, s => beat cycles (beats cycles count s)

variable {s : Schedule} {c a b n : Nat} {i : Instruction} {after : Machine} {e : Interruption}

theorem fault_of_going (going : s.stop = none) : s.fault = none := by
  simp [fault, going]

theorem broken_of_going (going : s.stop = none) : s.broken = none := by
  simp [broken, going]

/-- No count of the timers falls behind the first steps of a tick. -/
theorem not_dvd_within {k : Nat} (whole : c ∣ a) (within : k + 1 < c) : ¬ c ∣ a + k + 1 := by
  intro due
  rw [Nat.add_assoc, ← Nat.dvd_add_iff_right whole] at due
  have least := Nat.le_of_dvd (Nat.succ_pos k) due
  omega

theorem beat_of_stopped {cause : Cause} (stopped : s.stop = some cause) : beat c s = s := by
  simp only [beat, stopped]

theorem beat_of_error (going : s.stop = none) (failed : s.machine.step.value = .error e) :
    beat c s = { s with machine := e.left, stop := some e.cause } := by
  simp only [beat, going, failed]

theorem beat_of_ok (going : s.stop = none) (result : s.machine.step.value = .ok (i, after)) :
    beat c s =
      if c ∣ s.done + 1 then
        { s with machine := after.countDown, done := s.done + 1, counted := s.counted + 1 }
      else { s with machine := after, done := s.done + 1 } := by
  simp only [beat, going, result]

/-- A step that succeeds is done, and the count of the timers behind it is counted. -/
theorem beat_succeeds (going : s.stop = none) (result : s.machine.step.value = .ok (i, after)) :
    (beat c s).done = s.done + 1 ∧ (beat c s).stop = none ∧
      (beat c s).counted = s.counted + (if c ∣ s.done + 1 then 1 else 0) ∧
      ((beat c s).machine = after ∨ (beat c s).machine = after.countDown) := by
  rw [beat_of_ok going result]
  by_cases due : c ∣ s.done + 1
  · rw [if_pos due, if_pos due]
    exact ⟨rfl, going, rfl, .inr rfl⟩
  · rw [if_neg due, if_neg due]
    exact ⟨rfl, going, rfl, .inl rfl⟩

theorem beats_of_stopped {cause : Cause} (stopped : s.stop = some cause) (n : Nat) :
    beats c n s = s := by
  induction n with
  | zero => rfl
  | succ n ih => rw [beats, ih, beat_of_stopped stopped]

theorem beats_add (c a b : Nat) (s : Schedule) : beats c (a + b) s = beats c b (beats c a s) := by
  induction b with
  | zero => rfl
  | succ b ih => rw [← Nat.add_assoc, beats, beats, ih]

/-! ### The accounts of a schedule -/

/-- A schedule of `n` steps on a well-formed machine: the timers were counted down once for every
whole `c` among the steps that succeeded, every step was done unless a fault stopped it, and the
machine that came to the fault is left as it was. -/
structure Accounted (c n : Nat) (s : Schedule) : Prop where
  wellFormed : s.machine.WellFormed
  counted : s.counted = s.done / c
  whole : s.stop = none → s.done = n
  part : ∀ cause, s.stop = some cause →
    s.done < n ∧ ∃ f, cause = .fault f ∧ s.machine.Fails f

theorem accounted_start {m : Machine} (wf : m.WellFormed) (c : Nat) :
    Accounted c 0 { machine := m } where
  wellFormed := wf
  counted := (Nat.zero_div c).symm
  whole _ := rfl
  part cause stopped := by cases stopped

namespace Accounted

theorem beat (accounts : Accounted c n s) : Accounted c (n + 1) (beat c s) := by
  cases going : s.stop with
  | some cause =>
      rw [beat_of_stopped going]
      refine ⟨accounts.wellFormed, accounts.counted, ?_, ?_⟩
      · intro none
        rw [going] at none
        cases none
      · intro cause stopped
        obtain ⟨fewer, fault⟩ := accounts.part cause stopped
        exact ⟨by omega, fault⟩
  | none =>
      have all := accounts.whole going
      cases result : s.machine.step.value with
      | error e =>
          obtain ⟨f, fails, rfl⟩ := accounts.wellFormed.step_error result
          rw [beat_of_error going result]
          refine ⟨accounts.wellFormed, accounts.counted, ?_, ?_⟩
          · intro none
            cases none
          · intro cause stopped
            cases stopped
            exact ⟨Nat.lt_succ_of_le (Nat.le_of_eq all), f, rfl, fails⟩
      | ok done =>
          have after := accounts.wellFormed.step_ok result
          obtain ⟨done, stop, counted, machine⟩ := beat_succeeds (c := c) going result
          refine ⟨?_, ?_, ?_, ?_⟩
          · rcases machine with same | same
            · rw [same]
              exact after
            · rw [same]
              exact after.countDown
          · rw [counted, done, accounts.counted]
            exact Nat.succ_div.symm
          · intro _
            rw [done, all]
          · intro cause stopped
            rw [stop] at stopped
            cases stopped

theorem beats (accounts : Accounted c n s) (k : Nat) : Accounted c (n + k) (beats c k s) := by
  induction k with
  | zero => exact accounts
  | succ k ih => exact ih.beat

/-- Nothing but a fault stops the schedule of a well-formed machine. -/
theorem stop_eq (accounts : Accounted c n s) : s.stop = s.fault.map .fault := by
  unfold Schedule.fault
  cases stop : s.stop with
  | none => rfl
  | some cause =>
      obtain ⟨-, f, rfl, -⟩ := accounts.part cause stop
      rfl

theorem unbroken (accounts : Accounted c n s) : s.broken = none := by
  rw [Schedule.broken, accounts.stop_eq]
  cases s.fault <;> rfl

end Accounted

/-! ### Runs and schedules -/

/-- A run is where a schedule is. -/
structure Agree (run : Run) (s : Schedule) : Prop where
  machine : run.machine = s.machine
  fault : run.fault = s.fault
  broken : run.broken = s.broken

namespace Agree

variable {run : Run}

theorem start (going : s.stop = none) : Agree { machine := s.machine } s := by
  refine ⟨rfl, ?_, ?_⟩
  · rw [fault_of_going going]
  · rw [broken_of_going going]

theorem ended (agree : Agree run s) : run.ended = s.stop.isSome := by
  rw [Run.ended, agree.fault, agree.broken, Schedule.fault, Schedule.broken]
  cases s.stop with
  | none => rfl
  | some cause => cases cause <;> rfl

theorem step_of_stopped {cause : Cause} (agree : Agree run s) (stopped : s.stop = some cause) :
    Agree run.step (beat c s) := by
  rw [beat_of_stopped stopped, Run.step_of_ended (by rw [agree.ended, stopped]; rfl)]
  exact agree

theorem step_of_error (agree : Agree run s) (going : s.stop = none)
    (failed : s.machine.step.value = .error e) : Agree run.step (beat c s) := by
  have unended : run.ended = false := by rw [agree.ended, going]; rfl
  rw [beat_of_error going failed]
  rw [← agree.machine] at failed
  obtain ⟨machine, fault, broken, -⟩ := Run.step_of_error unended failed
  exact ⟨machine, fault, broken⟩

/-- Behind a step that succeeds a run does not count the timers down. -/
theorem step_of_ok (agree : Agree run s) (going : s.stop = none)
    (result : s.machine.step.value = .ok (i, after)) :
    Agree run.step { s with machine := after, done := s.done + 1 } := by
  have unended : run.ended = false := by rw [agree.ended, going]; rfl
  rw [← agree.machine] at result
  obtain ⟨machine, fault, broken, -⟩ := Run.step_of_ok unended result
  exact ⟨machine, fault.trans (fault_of_going (s := { s with machine := after }) going).symm,
    broken.trans (broken_of_going (s := { s with machine := after }) going).symm⟩

theorem step (agree : Agree run s) (quiet : ¬ c ∣ s.done + 1) : Agree run.step (beat c s) := by
  cases going : s.stop with
  | some cause => exact agree.step_of_stopped going
  | none =>
      cases result : s.machine.step.value with
      | error e => exact agree.step_of_error going result
      | ok done =>
          rw [beat_of_ok going result, if_neg quiet]
          exact agree.step_of_ok going result

/-- A stretch of steps behind none of which the timers are counted down. -/
theorem stretch (accounts : Accounted c a s) (going : s.stop = none) (n : Nat)
    (quiet : ∀ k, k < n → ¬ c ∣ a + k + 1) : Agree (s.machine.run n) (beats c n s) := by
  induction n with
  | zero => exact start going
  | succ n ih =>
      have agree := ih fun k within => quiet k (by omega)
      rw [Machine.run_succ, beats]
      cases before : (beats c n s).stop with
      | some cause => exact agree.step_of_stopped before
      | none =>
          refine agree.step ?_
          rw [(accounts.beats n).whole before]
          exact quiet n (by omega)

end Agree

/-! ### Ticks and schedules -/

/-- A stint of work ended where a schedule is. -/
structure Meets (stint : Stint) (s : Schedule) : Prop where
  machine : stint.runner.machine = s.machine
  fault : stint.runner.fault = s.fault
  broken : stint.broken = s.broken

theorem Meets.goesOn {stint : Stint} (meets : Meets stint s) : stint.goesOn = s.stop.isNone := by
  rw [Stint.goesOn, Runner.running, meets.fault, meets.broken, Schedule.fault, Schedule.broken]
  cases s.stop with
  | none => rfl
  | some cause => cases cause <;> rfl

/-- A batch is a stretch of steps. -/
theorem Agree.batch {r : Runner} (running : r.fault = none)
    (agree : Agree (r.machine.run n) s) : Meets (r.batch n) s := by
  obtain ⟨machine, fault, broken⟩ := Runner.batch_of_running running n
  exact ⟨machine.trans agree.machine, fault.trans agree.fault, broken.trans agree.broken⟩

section Ticks

variable {r : Runner}

/-- A batch that is stopped is all that its tick does. -/
theorem Meets.tick_of_stopped {cause : Cause} (unpaused : r.machine.paused = false)
    (meets : Meets (r.batch r.cycles) s) (stopped : s.stop = some cause) : Meets r.tick s := by
  have ended : (r.batch r.cycles).goesOn = false := by
    rw [meets.goesOn, stopped]
    rfl
  rw [Runner.tick_of_ended unpaused ended]
  exact meets

/-- One tick. Its last step is the only one behind which the timers are counted down. -/
theorem tick_meets (unpaused : r.machine.paused = false) (running : r.fault = none)
    (same : r.machine = s.machine) (length : r.cycles = b + 1)
    (accounts : Accounted (b + 1) a s) (going : s.stop = none) (whole : b + 1 ∣ a) :
    Meets r.tick (beats (b + 1) (b + 1) s) := by
  have quiet : ∀ j, j < b → ¬ b + 1 ∣ a + j + 1 := by
    intro j within
    exact not_dvd_within whole (by omega)
  have agree := Agree.stretch accounts going b quiet
  -- The batch is the stretch and the last step.
  have batch {t : Schedule} (last : Agree (s.machine.run b).step t) :
      Meets (r.batch r.cycles) t := by
    rw [length]
    refine Agree.batch running ?_
    rw [same, Machine.run_succ]
    exact last
  rw [beats]
  cases before : (beats (b + 1) b s).stop with
  | some cause =>
      have last := batch (agree.step_of_stopped (c := b + 1) before)
      exact last.tick_of_stopped unpaused (by rw [beat_of_stopped before, before])
  | none =>
      cases result : (beats (b + 1) b s).machine.step.value with
      | error e =>
          have last := batch (agree.step_of_error (c := b + 1) before result)
          exact last.tick_of_stopped unpaused (by rw [beat_of_error before result])
      | ok done =>
          have last := batch (agree.step_of_ok before result)
          have due : b + 1 ∣ (beats (b + 1) b s).done + 1 := by
            rw [(accounts.beats b).whole before, Nat.add_assoc]
            exact (Nat.dvd_add_iff_right whole).mp (Nat.dvd_refl _)
          rw [Runner.tick_of_unpaused unpaused, if_pos (by rw [last.goesOn]; simp [before]),
            beat_of_ok before result, if_pos due]
          refine ⟨congrArg Machine.countDown last.machine, last.fault, ?_⟩
          simp [broken, before]

/-- Whole ticks. -/
theorem ticks_meets (unpaused : r.machine.paused = false) (running : r.fault = none)
    (same : r.machine = s.machine) (length : r.cycles = b + 1)
    (accounts : Accounted (b + 1) a s) (going : s.stop = none) (whole : b + 1 ∣ a) (n : Nat) :
    Meets (Runner.ticks n r) (beats (b + 1) (n * (b + 1)) s) := by
  induction n generalizing r s a with
  | zero =>
      rw [Nat.zero_mul, beats]
      refine ⟨same, ?_, ?_⟩
      · rw [Runner.ticks, running, fault_of_going going]
      · rw [Runner.ticks, broken_of_going going]
  | succ n ih =>
      have first := tick_meets unpaused running same length accounts going whole
      rw [Nat.succ_mul, Nat.add_comm (n * (b + 1)), beats_add, Runner.ticks, Stint.andThen,
        first.goesOn]
      cases before : (beats (b + 1) (b + 1) s).stop with
      | some cause =>
          rw [beats_of_stopped before]
          exact first
      | none =>
          have awake : r.machine.Awake := ⟨same ▸ accounts.wellFormed, unpaused⟩
          have kept := Runner.tick_keeps (P := Machine.Awake) (fun _ awake => awake.stepped)
            (fun _ awake => awake.countDown) awake
          refine ih kept.unpaused ?_ first.machine ((Runner.tick_cycles r).trans length)
            (accounts.beats (b + 1)) before ?_
          · rw [first.fault, fault_of_going before]
          · exact Nat.dvd_add whole (Nat.dvd_refl _)

end Ticks

/-! ### Work without a window -/

theorem ticks_of_paused {r : Runner} (paused : r.machine.paused = true) (running : r.fault = none)
    (n : Nat) : Runner.ticks n r = { runner := r } := by
  induction n with
  | zero => rfl
  | succ n ih =>
      rw [Runner.ticks, Runner.tick_of_paused paused,
        Stint.andThen_of_goesOn (Stint.goesOn_iff.mpr ⟨rfl, running⟩), ih]

/-- A paused machine is left alone. -/
theorem headless_of_paused {m : Machine} (paused : m.paused = true) (steps cycles : Int) :
    Runner.headless m steps cycles = { runner := Runner.new m cycles } := by
  simp only [Runner.headless]
  rw [ticks_of_paused (r := Runner.new m cycles) paused rfl, Stint.andThen_of_goesOn rfl]
  exact Runner.advance_of_paused paused _

/-- Whole ticks and then the rest, behind whose steps the timers are not counted down. -/
theorem headless_meets {m : Machine} (wf : m.WellFormed) (unpaused : m.paused = false)
    (steps cycles : Int) :
    Meets (Runner.headless m steps cycles)
      (beats (Runner.new m cycles).cycles steps.toNat { machine := m }) := by
  obtain ⟨b, length⟩ : ∃ b, (Runner.new m cycles).cycles = b + 1 :=
    ⟨_, (Nat.succ_pred_eq_of_pos (Runner.new m cycles).cycles_pos).symm⟩
  simp only [Runner.headless, length]
  generalize steps.toNat = n
  have ticks := ticks_meets (r := Runner.new m cycles) unpaused rfl rfl length
    (accounted_start wf (b + 1)) rfl (Nat.dvd_zero _) (n / (b + 1))
  have accounts := (accounted_start wf (b + 1)).beats (n / (b + 1) * (b + 1))
  rw [Nat.zero_add] at accounts
  have parts : n = n / (b + 1) * (b + 1) + n % (b + 1) := (Nat.div_add_mod' n (b + 1)).symm
  conv => rhs; rw [parts, beats_add]
  rw [Stint.andThen, ticks.goesOn]
  cases before : (beats (b + 1) (n / (b + 1) * (b + 1)) { machine := m }).stop with
  | some cause =>
      rw [beats_of_stopped before]
      exact ticks
  | none =>
      have awake : m.Awake := ⟨wf, unpaused⟩
      have kept := Runner.ticks_keeps (P := Machine.Awake) (r := Runner.new m cycles)
        (fun _ awake => awake.stepped) (fun _ awake => awake.countDown) awake (n / (b + 1))
      have fewer : n % (b + 1) < b + 1 := Nat.mod_lt n (Nat.succ_pos b)
      have quiet : ∀ k, k < n % (b + 1) → ¬ b + 1 ∣ n / (b + 1) * (b + 1) + k + 1 := by
        intro k within
        exact not_dvd_within (Nat.dvd_mul_left _ _) (by omega)
      have rest := Agree.stretch accounts before (n % (b + 1)) quiet
      rw [← ticks.machine] at rest
      simp only [Option.isNone_none, if_true]
      rw [Runner.advance_of_unpaused kept.unpaused, ← Int.natCast_emod, Int.toNat_natCast]
      exact rest.batch (ticks.fault.trans (fault_of_going before))

/-- Work without a window follows the schedule. On a well-formed machine that is not paused, a
number of steps in whole ticks and a rest ends with the machine and the fault of as many single
steps, behind every `c`-th of which the timers are counted down. So all steps are done unless one
comes to a fault, and the timers are counted down once for every whole `c` among the steps before
it. The length of a tick is never zero, and a paused machine is left alone. -/
theorem headless_eq_beats (m : Machine) (wf : m.WellFormed) (steps cycles : Int) :
    let c := (max 1 cycles).toNat
    let n := (max 0 steps).toNat
    let stint := Runner.headless m steps cycles
    let plan := beats c n { machine := m }
    (Runner.new m cycles).cycles = c ∧ 0 < c ∧
      (m.paused = true →
        stint.runner.machine = m ∧ stint.runner.fault = none ∧ stint.broken = none) ∧
      (m.paused = false →
        stint.runner.machine = plan.machine ∧ stint.runner.fault = plan.fault ∧
        stint.broken = none ∧ plan.counted = plan.done / c ∧
        (plan.fault = none → plan.done = n) ∧
        ∀ f, plan.fault = some f →
          plan.done < n ∧ ∃ e, plan.machine.step.value = .error e ∧ e.cause = .fault f) := by
  intro c n stint plan
  have length : (Runner.new m cycles).cycles = c := by
    change max 1 cycles.toNat = (max 1 cycles).toNat
    omega
  have size : steps.toNat = n := by omega
  have accounts := (accounted_start wf c).beats n
  rw [Nat.zero_add] at accounts
  refine ⟨length, by omega, ?_, ?_⟩
  · intro paused
    rw [show stint = _ from headless_of_paused paused steps cycles]
    exact ⟨rfl, rfl, rfl⟩
  · intro unpaused
    have meets := headless_meets wf unpaused steps cycles
    rw [length, size] at meets
    refine ⟨meets.machine, meets.fault, meets.broken.trans accounts.unbroken, accounts.counted,
      ?_, ?_⟩
    · intro none
      refine accounts.whole ?_
      rw [accounts.stop_eq, none]
      rfl
    · intro f fault
      have stopped : plan.stop = some (.fault f) := by
        rw [accounts.stop_eq, fault]
        rfl
      obtain ⟨fewer, g, same, fails⟩ := accounts.part (.fault f) stopped
      cases same
      exact ⟨fewer, _, fails.step, rfl⟩

def spinning : Machine :=
  { Machine.fresh {} .silent with
    memory := Machine.initialMemory.store Machine.origin [0x12, 0x00], delay := 9 }

theorem spinning_follows_schedule :
    spinning.WellFormed ∧
      (Runner.headless spinning 5 2).runner.machine =
        (beats 2 5 { machine := spinning }).machine ∧
      (Runner.headless spinning 5 2).runner.machine.delay = 7 ∧
      (beats 2 5 { machine := spinning }).counted = 2 := by
  have wf : spinning.WellFormed := ⟨fun r => Machine.fresh_bytes {} .silent r, by decide⟩
  have tick : (max 1 (2 : Int)).toNat = 2 := rfl
  have all : (max 0 (5 : Int)).toNat = 5 := rfl
  have done : (beats 2 5 { machine := spinning }).done = 5 := by decide +kernel
  have delay : (beats 2 5 { machine := spinning }).machine.delay = 7 := by decide +kernel
  obtain ⟨-, -, -, unpaused⟩ := headless_eq_beats spinning wf 5 2
  rw [tick, all] at unpaused
  obtain ⟨machine, -, -, counted, -⟩ := unpaused rfl
  rw [done] at counted
  exact ⟨wf, machine, by rw [machine, delay], counted⟩

end Schedule

end Chip8
