import Chip8.Proofs.Attempts
import Chip8.Proofs.Faults
import Chip8.Proofs.Journals

/-!
Work in parts. A run that has not ended goes on as a run of its own from the machine that it has
come to (`Machine.run_add`), and one that has ended stays as it is. So a batch can be cut in two
anywhere, with the same journal and wherever a fault falls (`Runner.batch_batch`), and so can an
advance. A tick is an advance and a count of the timers (`tick_eq`). Work without a window for the
instructions of whole ticks is those ticks (`headless_eq_ticks`), so that the beats of a clock and
work without a window come to the same (`work_composes`).

The clock needs a rate with a period (`Quantity.HasPeriod`), and a whole number that no float is
near enough to has none (`vast_rate_refused`). And its waits have to be allowed (`Clock.Allows`).
Which waits it asks for is a matter of the rate and the watch alone, so a clock that is refused one
has let its runner work for some whole ticks by then (`exists_tick_of_refused`).
-/

namespace Chip8

namespace Run

variable {first second : Run}

/-- A run and what it came to when it went on, as one run. -/
def join (first second : Run) : Run where
  machine := second.machine
  done := first.done + second.done
  last := second.last.or first.last
  fault := second.fault
  broken := second.broken
  notices := second.notices ++ first.notices

theorem join_start (going : first.ended = false) :
    first.join { machine := first.machine } = first := by
  obtain ⟨fault, broken⟩ := ended_eq_false_iff.mp going
  simp only [join, ← fault, ← broken]
  rfl

/-- One step more is one step more of the second part. -/
theorem step_join (first second : Run) : (first.join second).step = first.join second.step := by
  have same : (first.join second).ended = second.ended := rfl
  cases ended : second.ended with
  | true => rw [step_of_ended (same.trans ended), step_of_ended ended]
  | false =>
      unfold step take
      rw [same, ended]
      cases result : second.machine.step.value with
      | ok done => simp [join, result, Nat.add_assoc]
      | error e => simp [join, result]

end Run

namespace Machine

variable {m : Machine} {a : Nat}

/-- A run that has not ended goes on as a run of its own. -/
theorem run_add (going : (m.run a).ended = false) (b : Nat) :
    m.run (a + b) = (m.run a).join ((m.run a).machine.run b) := by
  induction b with
  | zero => exact (Run.join_start going).symm
  | succ b ih => rw [← Nat.add_assoc, run_succ, ih, Run.step_join, run_succ]

end Machine

namespace Quantity

/-- A clock with this rate has a period: the rate is not zero, and a float is near enough to it. -/
def HasPeriod : Quantity → Prop
  | .whole n => n ≠ 0 ∧ n.natAbs < floatLimit
  | .float x => (x == 0) = false

theorem hasPeriod_iff {rate : Quantity} : rate.HasPeriod ↔ RateError.ofRate? rate = none := by
  cases rate with
  | whole n =>
      by_cases zero : n = 0
      · simp [HasPeriod, RateError.ofRate?, zero]
      · simp [HasPeriod, RateError.ofRate?, fitsFloat, zero]
  | float x => simp [HasPeriod, RateError.ofRate?]

end Quantity

namespace Clock

variable {clock : Clock}

/-- The pace behind a number of beats from a pace on. -/
def pace (clock : Clock) (period : Float) : Nat → Pace → Pace
  | 0, begun => begun
  | beats + 1, begun => clock.pace period beats (clock.next period begun)

/-- The wait behind the beat that follows a number of beats from a pace on. -/
def wait (clock : Clock) (period : Float) (beats : Nat) (begun : Pace) : Float :=
  clock.delay period (clock.pace period beats begun)

/-- A clock of a rate is allowed every wait that it can ask for in a number of beats. -/
def Allows (clock : Clock) (rate : Quantity) (beats : Nat) : Prop :=
  ∀ k < beats, clock.refuses (clock.wait (1.0 / rate.toFloat) k clock.start) = false

instance (clock : Clock) (rate : Quantity) (beats : Nat) : Decidable (clock.Allows rate beats) :=
  inferInstanceAs (Decidable (∀ k < beats, _))

theorem exists_longest_of_refuses {delay : Float} (refuses : clock.refuses delay = true) :
    ∃ longest, clock.longest = some longest ∧ longest < delay := by
  rw [Clock.refuses, Bool.and_eq_true, Option.any_eq_true] at refuses
  obtain ⟨-, longest, known, less⟩ := refuses
  exact ⟨longest, known, of_decide_eq_true less⟩

end Clock

namespace Stint

/-- Does more work behind a stint. A fault does not keep it from being asked for, but what broke the
stint off breaks off the rest too. -/
def followedBy (s : Stint) (more : Runner → Stint) : Stint :=
  match s.broken with
  | some _ => s
  | none => more s.runner

theorem followedBy_of_unbroken {s : Stint} (unbroken : s.broken = none) (more : Runner → Stint) :
    s.followedBy more = more s.runner := by
  simp only [followedBy, unbroken]

theorem followedBy_of_broken {s : Stint} {e : NotAByte} (broken : s.broken = some e)
    (more : Runner → Stint) : s.followedBy more = s := by
  simp only [followedBy, broken]

end Stint

namespace Runner

variable {r : Runner} {j n : Nat}

/-! ### Batches -/

theorem batch_paused (r : Runner) (n : Nat) :
    (r.batch n).runner.machine.paused = r.machine.paused := by
  apply batch_keeps (P := fun m => m.paused = r.machine.paused)
  · intro m same
    exact m.stepped_leaves.paused.trans same
  · rfl

/-- A batch can be cut in two. -/
theorem batch_batch (r : Runner) (a b : Nat) :
    (r.batch a).followedBy (·.batch b) = r.batch (a + b) := by
  cases stopped : r.fault with
  | some f =>
      rw [batch_of_stopped stopped, batch_of_stopped stopped]
      exact batch_of_stopped stopped b
  | none =>
      cases ended : (r.machine.run a).ended with
      | true =>
          -- the cut is behind the end, so the second part finds no work
          have whole : r.batch (a + b) = r.batch a := by
            simp only [batch, stopped, Machine.run_of_ended ended (Nat.le_add_right a b)]
          rw [whole]
          cases broken : (r.batch a).broken with
          | some e => rw [Stint.followedBy_of_broken broken]
          | none =>
              obtain ⟨-, fault, sameBroken⟩ := batch_of_running stopped a
              obtain ⟨f, fails⟩ : ∃ f, (r.machine.run a).fault = some f := by
                rw [sameBroken] at broken
                simpa [Run.ended, broken, Option.isSome_iff_exists] using ended
              rw [Stint.followedBy_of_unbroken broken, batch_of_stopped (fault.trans fails),
                ← broken]
      | false =>
          obtain ⟨fault, broken⟩ := Run.ended_eq_false_iff.mp ended
          have whole := Machine.run_add ended b
          have first : r.batch a = { runner := { r with
              machine := (r.machine.run a).machine
              journal := (r.machine.run a).notices ++ r.journal } } := by
            simp [batch, stopped, fault, broken]
          rw [first, Stint.followedBy_of_unbroken rfl]
          simp [batch, stopped, whole, Run.join]

/-- So can an advance, which leaves a paused machine paused. -/
theorem advance_advance (r : Runner) (a b : Nat) :
    (r.advance a).followedBy (·.advance b) = r.advance (a + b : Nat) := by
  cases paused : r.machine.paused with
  | true =>
      rw [advance_of_paused paused, advance_of_paused paused]
      exact advance_of_paused paused b
  | false =>
      rw [advance_of_unpaused paused, advance_of_unpaused paused, Int.toNat_natCast,
        Int.toNat_natCast, ← batch_batch]
      cases broken : (r.batch a).broken with
      | some e => rw [Stint.followedBy_of_broken broken, Stint.followedBy_of_broken broken]
      | none =>
          have unpaused := (r.batch_paused a).trans paused
          rw [Stint.followedBy_of_unbroken broken, Stint.followedBy_of_unbroken broken,
            advance_of_unpaused unpaused, Int.toNat_natCast]

/-- A tick is an advance, and then a count of the timers if the machine was not paused and no fault
is left. -/
theorem tick_eq (r : Runner) :
    r.tick = (r.advance r.cycles).followedBy fun worked =>
      { runner :=
          if r.machine.paused = false ∧ worked.fault = none then worked.countDown
          else worked } := by
  cases paused : r.machine.paused with
  | true =>
      rw [tick_of_paused paused, advance_of_paused paused, Stint.followedBy_of_unbroken rfl]
      simp
  | false =>
      rw [advance_of_unpaused paused, Int.toNat_natCast]
      cases broken : (r.batch r.cycles).broken with
      | some e =>
          have ended : (r.batch r.cycles).goesOn = false := by simp [Stint.goesOn, broken]
          rw [tick_of_ended paused ended, Stint.followedBy_of_broken broken]
      | none =>
          rw [Stint.followedBy_of_unbroken broken]
          cases fault : (r.batch r.cycles).runner.fault with
          | none =>
              rw [tick_of_goesOn paused (Stint.goesOn_iff.mpr ⟨broken, fault⟩)]
              simp
          | some f =>
              rw [tick_of_fault paused fault]
              simp [← broken]

/-- The count of the timers makes no difference to the answer. -/
theorem reply_tick (r : Runner) : r.reply .tick = r.reply (.advance r.cycles) := by
  cases paused : r.machine.paused with
  | true => simp only [reply, tick_of_paused paused, advance_of_paused paused]
  | false =>
      have batch : r.advance r.cycles = r.batch r.cycles := advance_of_unpaused paused _
      cases goesOn : (r.batch r.cycles).goesOn with
      | true =>
          obtain ⟨broken, -⟩ := Stint.goesOn_iff.mp goesOn
          rw [reply, reply, batch, tick_of_goesOn paused goesOn, Stint.reply, Stint.reply, broken]
          rfl
      | false => rw [reply, reply, batch, tick_of_ended paused goesOn]

/-! ### Beats -/

section Beats

variable {clock : Clock} {period : Float} {pace : Pace} {f : Fault} {delay : Float}

/-- A clock whose waits are allowed lets its runner tick for every beat. -/
theorem beats_of_allowed
    (allowed : ∀ k < n, clock.refuses (clock.wait period k pace) = false) :
    beats clock period n pace r = { stint := ticks n r } := by
  induction n generalizing pace r with
  | zero => rfl
  | succ n ih =>
      cases goesOn : r.tick.goesOn with
      | true =>
          have first : clock.refuses (clock.delay period pace) = false := allowed 0 n.succ_pos
          rw [beats_of_goesOn goesOn first,
            ih fun k within => allowed (k + 1) (Nat.succ_lt_succ within), ticks_of_goesOn goesOn]
      | false => rw [beats_of_ended goesOn, ticks_of_ended goesOn]

/-- A clock that is refused a wait has let its runner tick up to there. -/
theorem exists_tick_of_refused (refused : (beats clock period n pace r).refused = some delay) :
    ∃ k < n, delay = clock.wait period k pace ∧ clock.refuses delay = true ∧
      (beats clock period n pace r).stint = ticks (k + 1) r := by
  induction n generalizing pace r with
  | zero => cases refused
  | succ n ih =>
      cases goesOn : r.tick.goesOn with
      | true =>
          cases refuses : clock.refuses (clock.delay period pace) with
          | true =>
              rw [beats_of_refused goesOn refuses] at refused ⊢
              obtain rfl := Option.some.inj refused
              exact ⟨0, n.succ_pos, rfl, refuses, r.ticks_one.symm⟩
          | false =>
              rw [beats_of_goesOn goesOn refuses] at refused ⊢
              obtain ⟨k, within, same, tooLong, stint⟩ := ih refused
              refine ⟨k + 1, Nat.succ_lt_succ within, same, tooLong, ?_⟩
              rw [stint, ticks_of_goesOn goesOn]
      | false =>
          rw [beats_of_ended goesOn] at refused
          cases refused

/-- Behind a fault the clock does not beat. -/
theorem beats_of_fault (fault : (beats clock period j pace r).stint.runner.fault = some f)
    (within : j ≤ n) : beats clock period n pace r = beats clock period j pace r := by
  induction j generalizing n pace r with
  | zero =>
      have stopped : r.fault = some f := fault
      cases n with
      | zero => rfl
      | succ n =>
          have tick := tick_of_stopped stopped
          rw [beats_of_ended (by rw [tick]; exact Stint.goesOn_of_fault stopped), tick]
          rfl
  | succ j ih =>
      obtain ⟨n, rfl⟩ := Nat.exists_eq_add_of_le' (Nat.one_le_of_lt within)
      cases goesOn : r.tick.goesOn with
      | true =>
          cases refuses : clock.refuses (clock.delay period pace) with
          | true => rw [beats_of_refused goesOn refuses, beats_of_refused goesOn refuses]
          | false =>
              rw [beats_of_goesOn goesOn refuses] at fault
              rw [beats_of_goesOn goesOn refuses, beats_of_goesOn goesOn refuses]
              exact ih fault (Nat.le_of_succ_le_succ within)
      | false => rw [beats_of_ended goesOn, beats_of_ended goesOn]

end Beats

/-! ### Work without a window -/

theorem advance_zero (r : Runner) : r.advance 0 = { runner := r } := by
  unfold advance
  split
  · rfl
  · cases stopped : r.fault with
    | some f => exact batch_of_stopped stopped _
    | none =>
        obtain ⟨machine, cycles, positive, fault, journal⟩ := r
        obtain rfl : fault = none := stopped
        rfl

/-- Work without a window for the instructions of whole ticks is those ticks. -/
theorem headless_eq_ticks (m : Machine) {cycles : Int} (positive : 1 ≤ cycles) (k : Nat) :
    headless m (k * cycles) cycles = ticks k (new m cycles) := by
  have length : ((new m cycles).cycles : Int) = cycles := by
    simp only [new]
    omega
  have whole : ((k : Int) * cycles).toNat = k * (new m cycles).cycles := by
    generalize (new m cycles).cycles = n at length
    rw [← length, ← Int.natCast_mul, Int.toNat_natCast]
  have rest : ((k * (new m cycles).cycles : Nat) : Int) % (new m cycles).cycles = 0 := by
    rw [← Int.natCast_emod, Nat.mul_mod_left, Int.natCast_zero]
  simp only [headless]
  rw [whole, Nat.mul_div_cancel _ (new m cycles).cycles_pos, rest]
  cases goesOn : (ticks k (new m cycles)).goesOn with
  | true =>
      obtain ⟨broken, -⟩ := Stint.goesOn_iff.mp goesOn
      rw [Stint.andThen_of_goesOn goesOn, advance_zero, ← broken]
  | false => rw [Stint.andThen_of_ended goesOn]

/-- A runner without a fault works as a new one does around its machine. -/
theorem ticks_matches_headless (running : r.fault = none) (n : Nat) :
    (ticks n r).Matches (headless r.machine (n * r.cycles) r.cycles) := by
  have positive : 1 ≤ (r.cycles : Int) := Int.ofNat_le.mpr r.cycles_pos
  have anew : r.Matches (new r.machine r.cycles) := ⟨rfl, (r.new_cycles r.machine).symm, running⟩
  rw [headless_eq_ticks r.machine positive]
  exact anew.ticks n

/-- Batches compose. Whatever state a runner is in, an advance and another behind it do what one
advance of both lengths does, and the second answers what that one would: if a store breaks the work
off, the rest is not done either way. A tick is an advance for its length, and a count of the timers
behind it exactly if the machine was not paused and no fault is left.

A clock with a period, stopped after some checks, lets a runner without a fault work as its machine
does without a window for as many whole ticks of the same length, if every wait that it asks for is
allowed; if one is refused as too long, the runner has worked for the whole ticks up to there. The
first tick that ends in a fault is the last. -/
theorem work_composes :
    (∀ (r : Runner) (a b : Nat),
      (r.advance a).followedBy (·.advance b) = r.advance (a + b : Nat) ∧
      ((r.advance a).broken = none →
        (r.perform (.advance a)).perform (.advance b) = r.perform (.advance (a + b : Nat)) ∧
        (r.perform (.advance a)).reply (.advance b) = r.reply (.advance (a + b : Nat)))) ∧
    (∀ r : Runner,
      (r.tick = (r.advance r.cycles).followedBy fun worked =>
        { runner :=
            if r.machine.paused = false ∧ worked.fault = none then worked.countDown
            else worked }) ∧
      r.reply .tick = r.reply (.advance r.cycles)) ∧
    ∀ (r : Runner) (n : Nat) (clock : Clock) (rate : Quantity), r.fault = none → rate.HasPeriod →
      ∃ paced, r.run n clock rate = .ok paced ∧
        (clock.Allows rate n → paced.refused = none ∧
          paced.stint.Matches (headless r.machine (n * r.cycles) r.cycles)) ∧
        (∀ delay, paced.refused = some delay →
          (∃ longest, clock.longest = some longest ∧ longest < delay) ∧
          ∃ k < n, paced.stint.Matches (headless r.machine ((k + 1 : Nat) * r.cycles) r.cycles)) ∧
        ∀ j ≤ n, ∀ early, r.run j clock rate = .ok early → early.stint.runner.fault ≠ none →
          paced = early := by
  refine ⟨?_, fun r => ⟨r.tick_eq, r.reply_tick⟩, ?_⟩
  · intro r a b
    have whole := r.advance_advance a b
    refine ⟨whole, ?_⟩
    intro unbroken
    have second : (r.perform (.advance a)).advance b = r.advance (a + b : Nat) :=
      (Stint.followedBy_of_unbroken unbroken _).symm.trans whole
    exact ⟨congrArg Stint.runner second, by simp only [reply, second]⟩
  · intro r n clock rate running period
    have runs : ∀ checks, r.run checks clock rate =
        .ok (beats clock (1.0 / rate.toFloat) checks clock.start r) := by
      intro checks
      simp only [run, Quantity.hasPeriod_iff.mp period]
    refine ⟨_, runs n, ?_, ?_, ?_⟩
    · intro allowed
      rw [beats_of_allowed allowed]
      exact ⟨rfl, ticks_matches_headless running n⟩
    · intro delay refused
      obtain ⟨k, within, -, tooLong, stint⟩ := exists_tick_of_refused refused
      refine ⟨Clock.exists_longest_of_refuses tooLong, k, within, ?_⟩
      rw [stint]
      exact ticks_matches_headless running (k + 1)
    · intro j within early same fault
      obtain rfl := Except.ok.inj ((runs j).symm.trans same)
      obtain ⟨f, stopped⟩ := Option.ne_none_iff_exists'.mp fault
      exact beats_of_fault stopped within

/-- A clock whose watch goes on by a 64th of a second between two readings, and which may wait for
about 300 years. -/
def steadyClock : Clock where
  reading k := Float.ofNat k / 64
  longest := some 9223372036

/-- The machine with the return to nowhere, in ticks of one instruction: an advance can be cut
before the return, and of five beats the second is the last. -/
theorem strayReturn_beats_twice :
    let r := new strayReturn 1
    (r.advance 1).broken = none ∧
      (r.perform (.advance 1)).perform (.advance 3) = r.perform (.advance 4) ∧
      (r.perform (.advance 4)).fault = some (.stackUnderflow 0x202) ∧
      r.fault = none ∧ (Quantity.whole 60).HasPeriod ∧ steadyClock.Allows (.whole 60) 5 ∧
      ∃ paced early, r.run 5 steadyClock (.whole 60) = .ok paced ∧
        r.run 2 steadyClock (.whole 60) = .ok early ∧ paced = early ∧ paced.refused = none ∧
        paced.stint.runner.fault = some (.stackUnderflow 0x202) ∧
        paced.stint.Matches (headless strayReturn 5 1) := by
  intro r
  have period : (Quantity.whole 60).HasPeriod := ⟨by decide, by decide +kernel⟩
  have allowed : steadyClock.Allows (.whole 60) 5 := by decide +kernel
  obtain ⟨advanced, -, clocked⟩ := work_composes
  have unbroken : (r.advance 1).broken = none := by decide +kernel
  obtain ⟨cut, -⟩ := (advanced r 1 3).2 unbroken
  have stopped : (r.perform (.advance 4)).fault = some (.stackUnderflow 0x202) := by
    decide +kernel
  obtain ⟨paced, beats, whole, -, early⟩ := clocked r 5 steadyClock (.whole 60) rfl period
  obtain ⟨short, twice, -, -, -⟩ := clocked r 2 steadyClock (.whole 60) rfl period
  obtain ⟨unrefused, same⟩ := whole allowed
  have last : short.stint.runner.fault = some (.stackUnderflow 0x202) := by
    obtain rfl := Except.ok.inj twice
    decide +kernel
  obtain rfl := early 2 (by decide) short twice (by rw [last]; exact Option.some_ne_none _)
  exact ⟨unbroken, cut, stopped, rfl, period, allowed, paced, paced, beats, twice, rfl, unrefused,
    last, same⟩

/-- A clock that beats once in three centuries is refused its first wait, behind one tick. -/
example :
    let slow := beats steadyClock (1.0 / 1e-10) 5 steadyClock.start (new strayReturn 1)
    slow.refused.isSome ∧ slow.stint.runner.machine.pc = 0x202 := by
  decide +kernel

/-- Not every rate that is not zero has a period: no float is near to this one, so the clock is
refused and the timer of the machine stays at seven, which work without a window counts down. -/
theorem vast_rate_refused :
    ¬ ∀ (r : Runner) (n : Nat) (clock : Clock) (hz : Int), r.machine.paused = false →
        r.fault = none → clock.longest = none → hz ≠ 0 →
        let clocked := r.perform (.run n clock (.whole hz))
        let whole := (headless r.machine (n * r.cycles) r.cycles).runner
        clocked.machine = whole.machine ∧ clocked.fault = whole.fault := by
  intro always
  let r := new strayReturn 1
  let clock : Clock := { reading := fun _ => 0 }
  have refused : RateError.ofRate? (.whole (2 ^ 1024)) = some .tooLarge := by decide +kernel
  have stays : r.perform (.run 1 clock (.whole (2 ^ 1024))) = r := by
    simp only [perform, run, refused]
  obtain ⟨machine, -⟩ := always r 1 clock (2 ^ 1024) rfl rfl rfl (by decide +kernel)
  rw [stays] at machine
  have seven : r.machine.delay = 7 := rfl
  have six : (headless r.machine ((1 : Nat) * r.cycles) r.cycles).runner.machine.delay = 6 := by
    decide +kernel
  rw [← machine, seven] at six
  cases six

end Runner

end Chip8
