import Chip8.Operation
import Chip8.Proofs.Faults
import Chip8.Proofs.Footprint

/-!
The law of the timers. Nothing sets a timer but its own word, FX15 or FX18 (`Machine.setting?`), and
nothing counts it down but a tick that is neither paused nor ended by a fault (`Runner.completes`).
So a run leaves in a timer the last value that its steps set, or what was there
(`Machine.reading_run`), and of the operations on a runner only a completed tick takes one off that
(`Runner.reading_perform`). The history of a session notes the values and the completed ticks in
their order (`Runner.history`), and the timer can be read off it at any time: it is the value set
last less the ticks completed since, and no less than zero (`Runner.timers_follow_history`).
-/

namespace Chip8

namespace Timer

/-- The instruction that sets a timer from a register. -/
def setter : Timer → Register → Instruction
  | .delay => .setDelay
  | .sound => .setSound

/-- The last byte of the words that set a timer. -/
def tail : Timer → Byte
  | .delay => 0x15
  | .sound => 0x18

/-- What happens to a timer: it is set to a value, or counted down by a completed tick. -/
inductive Mark where
  | set (value : Int)
  | tick
  deriving DecidableEq, Repr

/-- What a timer shows behind a history: the value set last, or the one at the start if none was
set, less the ticks since then and no less than zero. -/
inductive Shows (start : Int) : List Mark → Int → Prop where
  | unset (ticks : Nat) :
      Shows start (List.replicate ticks .tick) (max 0 (start - ticks))
  | set (before : List Mark) (value : Int) (ticks : Nat) :
      Shows start (before ++ .set value :: List.replicate ticks .tick) (max 0 (value - ticks))

namespace Shows

variable {start now : Int} {history : List Mark}

theorem nil (positive : 0 ≤ start) : Shows start [] start := by
  have shown : Shows start [] (max 0 (start - (0 : Nat))) := unset 0
  rwa [Int.natCast_zero, Int.sub_zero, Int.max_eq_right positive] at shown

/-- One tick more takes one off. -/
theorem tick (shows : Shows start history now) :
    Shows start (history ++ [.tick]) (max 0 (now - 1)) := by
  cases shows with
  | unset ticks =>
      have less : max 0 (max 0 (start - ticks) - 1) = max 0 (start - (ticks + 1 : Nat)) := by omega
      rw [less, ← List.replicate_succ']
      exact unset (ticks + 1)
  | set before value ticks =>
      have less : max 0 (max 0 (value - ticks) - 1) = max 0 (value - (ticks + 1 : Nat)) := by omega
      rw [less, List.append_assoc, List.cons_append, ← List.replicate_succ']
      exact set before value (ticks + 1)

/-- Of values that are set one after the other the last one counts. -/
theorem setAll (shows : Shows start history now) {values : List Int}
    (positive : ∀ v ∈ values, 0 ≤ v) :
    Shows start (history ++ values.map .set) (values.getLast?.getD now) := by
  cases empty : values.getLast? with
  | none =>
      obtain rfl := List.getLast?_eq_none_iff.mp empty
      rwa [List.map_nil, List.append_nil]
  | some value =>
      obtain ⟨before, rfl⟩ := List.getLast?_eq_some_iff.mp empty
      have shown : Shows start (history ++ before.map .set ++ [.set value])
          (max 0 (value - (0 : Nat))) := set _ value 0
      have byte : 0 ≤ value := positive value (List.mem_append_right before List.mem_cons_self)
      rw [Int.natCast_zero, Int.sub_zero, Int.max_eq_right byte] at shown
      rw [List.map_append, ← List.append_assoc]
      exact shown

end Shows

end Timer

namespace Machine

variable {m after : Machine} {t : Timer} {i : Instruction} {v : Int}

/-! ### What a step sets -/

/-- The value that the next step puts into a timer, if the machine stands at the word for it. -/
def setting? (m : Machine) (t : Timer) : Option Int :=
  let o := Opcode.ofWord m.word
  if m.AtWord ∧ o.family = 0xF ∧ o.nn = t.tail then some (m.registers.get o.x) else none

/-- The words that set a timer are read as the instruction that sets it. -/
theorem means_setter_iff {o : Opcode} {x : Register} :
    o.Means (t.setter x) ↔ o.family = 0xF ∧ o.nn = t.tail ∧ x = o.x := by
  cases t <;> rfl

/-- The setting is carried out. -/
theorem step_of_setting? (set : m.setting? t = some v) :
    ∃ x after, m.step.value = .ok (t.setter x, after) ∧ t.reading after = v := by
  simp only [setting?, Option.ite_none_right_eq_some, Option.some.injEq] at set
  obtain ⟨⟨inside, family, tail⟩, rfl⟩ := set
  have known : Instruction.identify m.word m.pc = .ok (t.setter (Opcode.ofWord m.word).x) :=
    Instruction.identify_eq_ok_iff_means.mpr (means_setter_iff.mpr ⟨family, tail, rfl⟩)
  cases t
  · exact ⟨_, _, step_of_done inside known rfl, rfl⟩
  · exact ⟨_, _, step_of_done inside known rfl, rfl⟩

theorem reading_of_execute (means : (Opcode.ofWord m.word).Means i) (inside : m.AtWord)
    (done : m.execute i = .ok after) (t : Timer) :
    t.reading after = (m.setting? t).getD (t.reading m) := by
  have follows := execute_follows done
  by_cases sets : (Opcode.ofWord m.word).family = 0xF ∧ (Opcode.ofWord m.word).nn = t.tail
  · obtain rfl := means.unique (means_setter_iff.mpr ⟨sets.1, sets.2, rfl⟩)
    rw [setting?, if_pos ⟨inside, sets⟩]
    cases t
    · exact follows.delay
    · exact follows.sound
  · rw [setting?, if_neg fun h => sets h.2]
    cases t
    · exact follows.delay.trans (Classical.byContradiction fun h => sets (means.of_nextDelay h))
    · exact follows.sound.trans (Classical.byContradiction fun h => sets (means.of_nextSound h))

/-- A step leaves in a timer what its word sets, or what was there. -/
theorem reading_stepped (wf : m.WellFormed) (t : Timer) :
    t.reading m.stepped = (m.setting? t).getD (t.reading m) := by
  cases result : m.step.value with
  | error e =>
      obtain ⟨f, -, rfl⟩ := wf.step_error result
      cases set : m.setting? t with
      | some v =>
          obtain ⟨x, after, done, -⟩ := step_of_setting? set
          rw [result] at done
          cases done
      | none =>
          rw [(verdict_of_error result).2]
          rfl
  | ok done =>
      obtain ⟨i, after⟩ := done
      rw [(verdict_of_ok result).2]
      rcases step_ok result with ⟨inside, ⟨known, done⟩ | ⟨⟨f, malformed⟩, -, -, rfl⟩⟩
      · exact reading_of_execute (Instruction.identify_eq_ok_iff_means.mp known) inside done t
      · obtain ⟨family, -⟩ := Instruction.digits_of_malformed malformed
        rw [setting?, if_neg fun h => by rw [family] at h; exact absurd h.2.1 (by decide)]
        cases t <;> rfl

/-- What is set is a byte. -/
theorem setting?_nonneg (wf : m.WellFormed) (set : m.setting? t = some v) : 0 ≤ v := by
  simp only [setting?, Option.ite_none_right_eq_some, Option.some.injEq] at set
  obtain ⟨-, rfl⟩ := set
  exact (wf.bytes _).1

/-! ### What a run sets -/

/-- The values that a run of `n` steps puts into a timer, in their order. -/
def settings (m : Machine) (t : Timer) (n : Nat) : List Int :=
  (m.trail n).filterMap (·.setting? t)

theorem after?_wellFormed (wf : m.WellFormed) {n : Nat} (all : m.after? n = some after) :
    after.WellFormed := by
  rw [← (run_of_after all).1]
  exact run_keeps (fun _ wf => wf.stepped) wf n

theorem settings_nonneg (wf : m.WellFormed) (n : Nat) : ∀ v ∈ m.settings t n, 0 ≤ v := by
  intro v mem
  obtain ⟨reached, begins, set⟩ := List.mem_filterMap.mp mem
  obtain ⟨j, -, all⟩ := List.mem_filterMap.mp begins
  exact setting?_nonneg (after?_wellFormed wf all) set

/-- A run leaves in a timer the last value that it sets, or what was there. -/
theorem reading_run (wf : m.WellFormed) (t : Timer) (n : Nat) :
    t.reading (m.run n).machine = ((m.settings t n).getLast?).getD (t.reading m) := by
  induction n with
  | zero => rfl
  | succ n ih =>
      rw [run_succ]
      cases all : m.after? n with
      | none =>
          rw [Run.step_of_ended (run_ended all), ih, settings, settings, trail_succ_of_none all]
      | some reached =>
          obtain ⟨machine, fault, broken, -⟩ := run_of_after all
          rw [Run.step_machine (Run.ended_eq_false_iff.mpr ⟨fault, broken⟩), machine,
            reading_stepped (after?_wellFormed wf all), settings, trail_succ all,
            List.filterMap_append, ← machine, ih, settings, machine]
          cases set : reached.setting? t with
          | none => simp [set]
          | some v => simp [set]

end Machine

/-- Is an operation one of those that drive a machine by hand: a tick, an advance, a pause or its
end, or a client's action on the keypad? -/
def Operation.byHand : Operation → Bool
  | .tick | .advance _ | .togglePause | .act _ => true
  | _ => false

namespace Runner

variable {r : Runner} {o : Operation} {t : Timer} {operations : List Operation}

/-- A runner is at work if its machine is not paused and no fault has stopped it. -/
def AtWork (r : Runner) : Prop :=
  r.machine.paused = false ∧ r.fault = none

instance (r : Runner) : Decidable r.AtWork :=
  inferInstanceAs (Decidable (_ ∧ _))

/-- A runner that is not at work leaves its machine alone. -/
theorem rests (idle : ¬ r.AtWork) :
    r.tick = { runner := r } ∧ ∀ count, r.advance count = { runner := r } := by
  cases paused : r.machine.paused with
  | true => exact ⟨tick_of_paused paused, advance_of_paused paused⟩
  | false =>
      cases stopped : r.fault with
      | some f => exact ⟨tick_of_stopped stopped, advance_of_stopped stopped⟩
      | none => exact absurd ⟨paused, stopped⟩ idle

/-! ### What operations do to a timer -/

/-- The steps that an operation asks for. -/
def stretch (r : Runner) : Operation → Nat
  | .tick => r.cycles
  | .advance count => count.toNat
  | _ => 0

/-- The values that an operation puts into a timer, in their order. -/
def settings (r : Runner) (t : Timer) (o : Operation) : List Int :=
  if r.AtWork then r.machine.settings t (r.stretch o) else []

/-- What an operation leaves in a timer before it is counted down: the value set last, or what was
there. -/
def leaves (r : Runner) (t : Timer) (o : Operation) : Int :=
  ((r.settings t o).getLast?).getD (t.reading r.machine)

/-- Is an operation a tick that is neither paused nor ends with a fault? -/
def completes (r : Runner) : Operation → Bool
  | .tick => !r.machine.paused && (r.perform .tick).fault.isNone
  | _ => false

theorem leaves_of_idle (idle : ¬ r.AtWork) (o : Operation) :
    r.leaves t o = t.reading r.machine := by
  rw [leaves, settings, if_neg idle]
  rfl

theorem leaves_of_batch (wf : r.machine.WellFormed) (work : r.AtWork) :
    r.leaves t o = t.reading (r.batch (r.stretch o)).runner.machine := by
  rw [leaves, settings, if_pos work, (batch_of_running work.2 _).1, Machine.reading_run wf]

/-- A tick is completed exactly if the runner is at work and the batch comes to no fault. -/
theorem completes_tick :
    r.completes .tick = true ↔ r.AtWork ∧ (r.batch r.cycles).runner.fault = none := by
  by_cases work : r.AtWork
  · have same := tick_fault work.1
    simp only [completes, perform, work.1, same, Bool.not_false, Bool.true_and,
      Option.isNone_iff_eq_none, work, true_and]
  · have same := (rests work).1
    simp only [completes, perform, same, Bool.and_eq_true, Bool.not_eq_true',
      Option.isNone_iff_eq_none, work, false_and, iff_false]
    exact work

theorem reading_tick (wf : r.machine.WellFormed) (t : Timer) :
    t.reading r.tick.runner.machine =
      if r.completes .tick then max 0 (r.leaves t .tick - 1) else r.leaves t .tick := by
  by_cases work : r.AtWork
  · have worked := leaves_of_batch (o := .tick) (t := t) wf work
    have unbroken := batch_unbroken wf r.cycles
    rw [worked]
    cases fault : (r.batch r.cycles).runner.fault with
    | none =>
        rw [tick_of_goesOn work.1 (Stint.goesOn_iff.mpr ⟨unbroken, fault⟩),
          if_pos (completes_tick.mpr ⟨work, fault⟩)]
        cases t <;> rfl
    | some f =>
        have failed : ¬ r.completes .tick = true := by
          intro completes
          rw [(completes_tick.mp completes).2] at fault
          cases fault
        rw [tick_of_fault work.1 fault, if_neg failed]
        rfl
  · rw [leaves_of_idle work, (rests work).1, if_neg fun h => work (completes_tick.mp h).1]

/-- An operation leaves in a timer the value that it sets last, or what was there, and only a
completed tick takes one off that. -/
theorem reading_perform (wf : r.machine.WellFormed) (driven : o.byHand = true) (t : Timer) :
    t.reading (r.perform o).machine =
      if r.completes o then max 0 (r.leaves t o - 1) else r.leaves t o := by
  cases o with
  | tick => exact reading_tick wf t
  | advance count =>
      by_cases work : r.AtWork
      · rw [leaves_of_batch wf work, perform, advance_of_unpaused work.1]
        rfl
      · rw [leaves_of_idle work, perform, (rests work).2]
        rfl
  | togglePause | act action =>
      by_cases work : r.AtWork
      · rw [leaves, settings, if_pos work]
        cases t <;> rfl
      · rw [leaves_of_idle work]
        cases t <;> rfl
  | _ => cases driven

theorem perform_wellFormed (wf : r.machine.WellFormed) (driven : o.byHand = true) :
    (r.perform o).machine.WellFormed := by
  cases o with
  | tick => exact tick_keeps (fun _ wf => wf.stepped) (fun _ wf => wf.countDown) wf
  | advance count => exact advance_keeps (fun _ wf => wf.stepped) wf count
  | togglePause | act action => exact ⟨wf.bytes, wf.depth⟩
  | _ => cases driven

theorem performAll_wellFormed (wf : r.machine.WellFormed)
    (driven : ∀ o ∈ operations, o.byHand = true) :
    (r.performAll operations).machine.WellFormed := by
  induction operations generalizing r with
  | nil => exact wf
  | cons o rest ih =>
      obtain ⟨first, others⟩ := List.forall_mem_cons.mp driven
      exact ih (perform_wellFormed wf first) others

/-! ### Histories -/

/-- What an operation does to a timer: it sets values, and then counts the timer down if it is a
completed tick. -/
def marks (r : Runner) (t : Timer) (o : Operation) : List Timer.Mark :=
  (r.settings t o).map .set ++ if r.completes o then [.tick] else []

def history (r : Runner) (t : Timer) : List Operation → List Timer.Mark
  | [] => []
  | o :: rest => r.marks t o ++ (r.perform o).history t rest

theorem settings_nonneg (wf : r.machine.WellFormed) (o : Operation) :
    ∀ v ∈ r.settings t o, 0 ≤ v := by
  intro v mem
  unfold settings at mem
  split at mem
  · exact Machine.settings_nonneg wf _ v mem
  · cases mem

/-- One operation carries the reading of a timer on. -/
theorem shows_perform {start : Int} {before : List Timer.Mark} (wf : r.machine.WellFormed)
    (driven : o.byHand = true) (shows : Timer.Shows start before (t.reading r.machine)) :
    Timer.Shows start (before ++ r.marks t o) (t.reading (r.perform o).machine) := by
  have set : Timer.Shows start (before ++ (r.settings t o).map .set) (r.leaves t o) :=
    shows.setAll (settings_nonneg wf o)
  rw [reading_perform wf driven, marks, ← List.append_assoc]
  split
  · exact set.tick
  · rw [List.append_nil]
    exact set

theorem shows_performAll {start : Int} {before : List Timer.Mark} (wf : r.machine.WellFormed)
    (driven : ∀ o ∈ operations, o.byHand = true)
    (shows : Timer.Shows start before (t.reading r.machine)) :
    Timer.Shows start (before ++ r.history t operations)
      (t.reading (r.performAll operations).machine) := by
  induction operations generalizing r before with
  | nil =>
      rw [history, List.append_nil]
      exact shows
  | cons o rest ih =>
      obtain ⟨first, others⟩ := List.forall_mem_cons.mp driven
      rw [history, ← List.append_assoc]
      exact ih (perform_wellFormed wf first) others (shows_perform wf first shows)

/-- The law of the timers. Let a well-formed machine be driven by ticks, advances, pauses and keys
in any order. At any time a timer shows the value that was last put into it by its own word, or the
one that it started with if there was none, less the ticks since then that were neither paused nor
ended by a fault, and no less than zero; a tick whose own batch put the value in is one of these.
Every other operation, an advance or a tick that is paused or fails among them, leaves in the timer
the value that its steps put in last, or what was there, and a pause or a key leaves it alone. -/
theorem timers_follow_history (r : Runner) (wf : r.machine.WellFormed) (t : Timer)
    (start : t.InRange r.machine) (operations : List Operation)
    (driven : ∀ o ∈ operations, o.byHand = true) :
    let now := r.performAll operations
    Timer.Shows (t.reading r.machine) (r.history t operations) (t.reading now.machine) ∧
      (∀ o : Operation, o.byHand = true → now.completes o = false →
        t.reading (now.perform o).machine =
          ((now.settings t o).getLast?).getD (t.reading now.machine)) ∧
      t.reading now.togglePause.machine = t.reading now.machine ∧
      ∀ action, t.reading (now.act action).machine = t.reading now.machine := by
  intro now
  refine ⟨shows_performAll wf driven (.nil start), ?_, ?_, ?_⟩
  · intro o byHand incomplete
    rw [reading_perform (performAll_wellFormed wf driven) byHand, incomplete]
    rfl
  · cases t <;> rfl
  · intro action
    cases t <;> rfl

def boiling : Machine :=
  { Machine.fresh {} .silent with
    memory := Machine.initialMemory.store Machine.origin [0x60, 0x03, 0xF0, 0x15, 0x12, 0x04]
    delay := 9 }

def cooking : List Operation :=
  [.tick, .togglePause, .tick, .togglePause, .advance 5, .act (.press 3), .tick]

theorem boiling_shows_rest :
    boiling.WellFormed ∧ Timer.delay.InRange boiling ∧ (∀ o ∈ cooking, o.byHand = true) ∧
      (new boiling 2).history .delay cooking = [.set 3, .tick, .tick] ∧
      Timer.Shows 9 [.set 3, .tick, .tick]
        (Timer.delay.reading ((new boiling 2).performAll cooking).machine) ∧
      Timer.delay.reading ((new boiling 2).performAll cooking).machine = 1 := by
  have wf : boiling.WellFormed := ⟨fun r => Machine.fresh_bytes {} .silent r, by decide⟩
  have start : Timer.delay.InRange boiling := by decide
  have driven : ∀ o ∈ cooking, o.byHand = true := by decide
  have history : (new boiling 2).history .delay cooking = [.set 3, .tick, .tick] := by
    decide +kernel
  obtain ⟨shows, -⟩ := timers_follow_history (new boiling 2) wf .delay start cooking driven
  rw [history] at shows
  exact ⟨wf, start, driven, history, shows, by decide +kernel⟩

end Runner

end Chip8
