import Chip8.Proofs.Attempts
import Chip8.Proofs.Faults
import Chip8.Proofs.Journals
import Chip8.Proofs.Schedule

/-!
Pauses. A paused machine is left alone: ticks, advances and runs leave its runner as it is
(`Runner.perform_of_paused`), and keys go on to be pressed and let go. So what is done in a pause
comes down to the actions on the keypad (`performAll_of_paused`), and these do not see the pause
(`togglePause_acts`). A session that is paused here and there ends as it would have ended without
the pauses, had nothing but these actions been done in them (`pauses_are_transparent`).
-/

namespace Chip8

namespace Operation

/-- Does an operation let the machine work? -/
def isWork : Operation → Bool
  | .tick | .advance _ | .run _ _ _ => true
  | _ => false

def isAct : Operation → Bool
  | .act _ => true
  | _ => false

end Operation

/-- A stretch of a session: operations on a runner that is not paused, or a pause and what is done
until it ends. -/
inductive Stretch where
  | going (operations : List Operation)
  | pause (operations : List Operation)

namespace Stretch

/-- What is done in a stretch, the beginning and the end of a pause aside. -/
def inner : Stretch → List Operation
  | .going operations | .pause operations => operations

/-- What is done in a stretch. A pause begins and ends with a toggle. -/
def played : Stretch → List Operation
  | .going operations => operations
  | .pause operations => .togglePause :: (operations ++ [.togglePause])

/-- What is left of a stretch if there is no pause: of what would have been done in it, the actions
on the keypad. -/
def unpaused : Stretch → List Operation
  | .going operations => operations
  | .pause operations => operations.filter Operation.isAct

/-- Nothing is done in a stretch but work and actions on the keypad. -/
def Plain (s : Stretch) : Prop :=
  ∀ o ∈ s.inner, o.isWork = true ∨ o.isAct = true

instance (s : Stretch) : Decidable s.Plain :=
  inferInstanceAs (Decidable (∀ o ∈ s.inner, _))

end Stretch

namespace Runner

variable {r r' : Runner} {o : Operation} {operations : List Operation}

theorem performAll_append (r : Runner) (first second : List Operation) :
    r.performAll (first ++ second) = (r.performAll first).performAll second :=
  List.foldl_append

/-! ### A paused machine is left alone -/

/-- The ticks of a clock go on without effect, or they end at once if a fault is remembered. -/
theorem perform_run_of_paused (paused : r.machine.paused = true) (checks : Nat) (clock : Clock)
    (rate : Quantity) : r.perform (.run checks clock rate) = r := by
  cases stopped : r.fault with
  | some f => exact perform_run_of_stopped stopped checks clock rate
  | none =>
      obtain ⟨j, -, same⟩ := r.perform_run_eq_ticks checks clock rate
      rw [same, Schedule.ticks_of_paused paused stopped]

theorem perform_of_paused (paused : r.machine.paused = true) (work : o.isWork = true) :
    r.perform o = r := by
  cases o with
  | tick => exact congrArg Stint.runner (tick_of_paused paused)
  | advance count => exact congrArg Stint.runner (advance_of_paused paused count)
  | run checks clock rate => exact perform_run_of_paused paused checks clock rate
  | _ => cases work

/-- Neither work nor an action on the keypad begins or ends a pause. -/
theorem perform_paused (plain : o.isWork = true ∨ o.isAct = true) :
    (r.perform o).machine.paused = r.machine.paused := by
  have step : ∀ m : Machine, m.paused = r.machine.paused → m.stepped.paused = r.machine.paused := by
    intro m same
    rw [m.stepped_leaves.paused, same]
  have count : ∀ m : Machine, m.paused = r.machine.paused →
      m.countDown.paused = r.machine.paused := by
    intro m same
    exact same
  cases o with
  | act action => rfl
  | tick => exact tick_keeps step count rfl
  | advance n => exact advance_keeps step rfl n
  | run checks clock rate =>
      obtain ⟨j, -, same⟩ := r.perform_run_eq_ticks checks clock rate
      rw [same]
      exact ticks_keeps step count rfl j
  | _ => simp [Operation.isWork, Operation.isAct] at plain

theorem performAll_paused (plain : ∀ o ∈ operations, o.isWork = true ∨ o.isAct = true) :
    (r.performAll operations).machine.paused = r.machine.paused := by
  induction operations generalizing r with
  | nil => rfl
  | cons o rest ih =>
      have later := ih (r := r.perform o) fun other mem => plain other (List.mem_cons_of_mem _ mem)
      exact later.trans (perform_paused (plain o List.mem_cons_self))

/-- Of work and actions on the keypad only the actions are left in a pause. -/
theorem performAll_of_paused (paused : r.machine.paused = true)
    (plain : ∀ o ∈ operations, o.isWork = true ∨ o.isAct = true) :
    r.performAll operations = r.performAll (operations.filter Operation.isAct) := by
  induction operations generalizing r with
  | nil => rfl
  | cons o rest ih =>
      have first := plain o List.mem_cons_self
      have later := fun other mem => plain other (List.mem_cons_of_mem _ mem)
      have still : (r.perform o).machine.paused = true := (perform_paused first).trans paused
      by_cases act : o.isAct = true
      · rw [List.filter_cons_of_pos act]
        exact ih still later
      · rw [List.filter_cons_of_neg act]
        calc r.performAll (o :: rest)
            = (r.perform o).performAll (rest.filter Operation.isAct) := ih still later
          _ = r.performAll (rest.filter Operation.isAct) := by
            rw [perform_of_paused paused (first.resolve_right act)]

/-! ### Keys do not see a pause -/

theorem togglePause_togglePause (r : Runner) : r.togglePause.togglePause.Matches r := by
  constructor
  · simp [togglePause, note]
  · rfl
  · rfl

/-- The actions on the keypad in a pause can be done before it. -/
theorem togglePause_acts (acts : ∀ o ∈ operations, o.isAct = true) :
    (r.togglePause.performAll operations).Matches (r.performAll operations).togglePause := by
  induction operations generalizing r with
  | nil => exact .refl _
  | cons o rest ih =>
      have first : (r.togglePause.perform o).Matches (r.perform o).togglePause := by
        have act := acts o List.mem_cons_self
        cases o with
        | act action => exact ⟨rfl, rfl, rfl⟩
        | _ => cases act
      have later := ih (r := r.perform o) fun other mem => acts other (List.mem_cons_of_mem _ mem)
      exact (first.performAll rest).2.trans later

/-- A pause comes down to the actions on the keypad that are done in it. -/
theorem pause_matches (unpaused : r.machine.paused = false)
    (plain : ∀ o ∈ operations, o.isWork = true ∨ o.isAct = true) :
    (r.performAll (.togglePause :: (operations ++ [.togglePause]))).Matches
      (r.performAll (operations.filter Operation.isAct)) := by
  have paused : r.togglePause.machine.paused = true := by simp [togglePause, note, unpaused]
  have acts : ∀ o ∈ operations.filter Operation.isAct, o.isAct = true :=
    fun o mem => (List.mem_filter.mp mem).2
  have whole : r.performAll (.togglePause :: (operations ++ [.togglePause])) =
      (r.togglePause.performAll operations).togglePause :=
    performAll_append r.togglePause operations [.togglePause]
  rw [whole, performAll_of_paused paused plain]
  exact (togglePause_acts acts).togglePause.trans (togglePause_togglePause _)

/-! ### Sessions with pauses -/

theorem played_matches (unpaused : r.machine.paused = false) {s : Stretch} (plain : s.Plain) :
    (r.performAll s.played).Matches (r.performAll s.unpaused) ∧
      (r.performAll s.unpaused).machine.paused = false := by
  cases s with
  | going operations => exact ⟨.refl _, (performAll_paused plain).trans unpaused⟩
  | pause operations =>
      refine ⟨pause_matches unpaused plain, (performAll_paused ?_).trans unpaused⟩
      intro o mem
      exact .inr (List.mem_filter.mp mem).2

theorem session_matches (unpaused : r.machine.paused = false) {stretches : List Stretch}
    (plain : ∀ s ∈ stretches, s.Plain) :
    (r.performAll (stretches.flatMap Stretch.played)).Matches
      (r.performAll (stretches.flatMap Stretch.unpaused)) := by
  induction stretches generalizing r with
  | nil => exact .refl r
  | cons s rest ih =>
      obtain ⟨first, still⟩ := played_matches unpaused (plain s List.mem_cons_self)
      have later := ih still fun other mem => plain other (List.mem_cons_of_mem _ mem)
      rw [List.flatMap_cons, List.flatMap_cons, performAll_append, performAll_append]
      exact (first.performAll _).2.trans later

/-- Pauses are transparent. Let a machine that is not paused work for a while, with clients acting
on its keypad, and be paused any number of times in between, while work is tried and the clients go
on. In the end the machine and the fault are what they would have been without the pauses, if of all
that was done in them only the actions on the keypad had been done. While the machine is paused,
ticks, advances and runs leave it as it is and come to no fault. -/
theorem pauses_are_transparent (r : Runner) :
    (r.machine.paused = false →
      ∀ stretches : List Stretch, (∀ s ∈ stretches, s.Plain) →
        let interrupted := r.performAll (stretches.flatMap Stretch.played)
        let straight := r.performAll (stretches.flatMap Stretch.unpaused)
        interrupted.machine = straight.machine ∧ interrupted.fault = straight.fault) ∧
      (r.machine.paused = true →
        r.tick = { runner := r } ∧ (∀ count, r.advance count = { runner := r }) ∧
          ∀ checks clock rate, r.perform (.run checks clock rate) = r) := by
  constructor
  · intro unpaused stretches plain
    have same := session_matches unpaused plain
    exact ⟨same.machine, same.fault⟩
  · intro paused
    exact ⟨tick_of_paused paused, advance_of_paused paused, perform_run_of_paused paused⟩

def halting : List Stretch :=
  [.going [.tick],
    .pause [.tick, .act (.press 5), .advance 7, .run 2 ⟨fun _ => 0, none⟩ (.whole 60)],
    .going [.tick], .pause [.run 3 ⟨fun _ => 0, none⟩ (.whole 60), .act (.press 99)]]

theorem strayReturn_pauses_unseen :
    let r := new strayReturn 1
    let interrupted := r.performAll (halting.flatMap Stretch.played)
    let straight := r.performAll [.tick, .act (.press 5), .tick, .act (.press 99)]
    r.machine.paused = false ∧ (∀ s ∈ halting, s.Plain) ∧
      interrupted.machine = straight.machine ∧ interrupted.fault = straight.fault ∧
      straight.fault = some (.stackUnderflow 0x202) ∧ straight.machine.delay = 6 ∧
      r.togglePause.machine.paused = true ∧ r.togglePause.tick = { runner := r.togglePause } := by
  have plain : ∀ s ∈ halting, s.Plain := by decide
  obtain ⟨transparent, -⟩ := pauses_are_transparent (new strayReturn 1)
  obtain ⟨machine, fault⟩ := transparent rfl halting plain
  obtain ⟨-, idle⟩ := pauses_are_transparent (new strayReturn 1).togglePause
  exact ⟨rfl, plain, machine, fault, by decide +kernel, by decide +kernel, rfl, (idle rfl).1⟩

end Runner

end Chip8
