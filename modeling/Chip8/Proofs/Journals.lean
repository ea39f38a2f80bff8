import Chip8.Proofs.Runs

/-!
The journal of a runner is for its reader alone. Runners match if they have the same machine, the
same length of ticks and the same fault, whatever their journals say (`Runner.Matches`). Runners
that match answer every operation alike and go on to match (`Matches.perform`), so they do for any
operations in order (`Matches.performAll`).
-/

namespace Chip8

namespace Runner

/-- Two runners are the same but for their journals. -/
structure Matches (r r' : Runner) : Prop where
  machine : r.machine = r'.machine
  cycles : r.cycles = r'.cycles
  fault : r.fault = r'.fault

theorem Matches.running {r r' : Runner} (same : r.Matches r') : r.running = r'.running := by
  rw [Runner.running, Runner.running, same.fault]

end Runner

/-- Two stints leave runners that match and were broken off by the same number if at all. -/
structure Stint.Matches (s s' : Stint) : Prop where
  runner : s.runner.Matches s'.runner
  broken : s.broken = s'.broken

namespace Stint.Matches

variable {s s' : Stint}

theorem goesOn (same : s.Matches s') : s.goesOn = s'.goesOn := by
  rw [Stint.goesOn, Stint.goesOn, same.broken, same.runner.running]

theorem reply (same : s.Matches s') {whole whole' : Reply} (alike : whole = whole') :
    s.reply whole = s'.reply whole' := by
  rw [Stint.reply, Stint.reply, same.broken, alike]

theorem andThen (same : s.Matches s') {more : Runner → Stint}
    (keeps : ∀ r r' : Runner, r.Matches r' → (more r).Matches (more r')) :
    (s.andThen more).Matches (s'.andThen more) := by
  rw [Stint.andThen, Stint.andThen, same.goesOn]
  split
  · exact keeps _ _ same.runner
  · exact same

end Stint.Matches

namespace Runner

namespace Matches

variable {r r' r'' : Runner}

theorem refl (r : Runner) : r.Matches r :=
  ⟨rfl, rfl, rfl⟩

theorem trans (first : r.Matches r') (second : r'.Matches r'') : r.Matches r'' :=
  ⟨first.machine.trans second.machine, first.cycles.trans second.cycles,
    first.fault.trans second.fault⟩

theorem note (same : r.Matches r') (notices notices' : List Notice) :
    (r.note notices).Matches (r'.note notices') :=
  ⟨same.machine, same.cycles, same.fault⟩

/-- The same change to the machines of two runners. -/
theorem withMachine (same : r.Matches r') {m m' : Machine} (alike : m = m') :
    (r.withMachine m).Matches (r'.withMachine m') :=
  ⟨alike, same.cycles, same.fault⟩

/-! ### Work -/

theorem batch (same : r.Matches r') (n : Nat) : (r.batch n).Matches (r'.batch n) := by
  unfold Runner.batch
  rw [← same.fault, ← same.machine]
  cases r.fault with
  | some f => exact ⟨same, rfl⟩
  | none => exact ⟨⟨rfl, same.cycles, rfl⟩, rfl⟩

theorem advance (same : r.Matches r') (count : Int) :
    (r.advance count).Matches (r'.advance count) := by
  unfold Runner.advance
  rw [same.machine]
  split
  · exact ⟨same, rfl⟩
  · exact same.batch _

theorem tick (same : r.Matches r') : r.tick.Matches r'.tick := by
  unfold Runner.tick
  rw [same.machine, same.cycles]
  split
  · exact ⟨same, rfl⟩
  · apply (same.batch _).andThen
    intro worked worked' alike
    exact ⟨⟨congrArg Machine.countDown alike.machine, alike.cycles, alike.fault⟩, rfl⟩

theorem ticks (same : r.Matches r') (n : Nat) : (ticks n r).Matches (ticks n r') := by
  induction n generalizing r r' with
  | zero => exact ⟨same, rfl⟩
  | succ n ih =>
      apply same.tick.andThen
      intro ticked ticked' alike
      exact ih alike

/-- A clock asks for the same waits, as it does not look at what its runner does. -/
theorem beats (same : r.Matches r') (clock : Clock) (period : Float) (count : Nat) (pace : Pace) :
    (beats clock period count pace r).stint.Matches (beats clock period count pace r').stint ∧
      (beats clock period count pace r).refused = (beats clock period count pace r').refused := by
  induction count generalizing pace r r' with
  | zero => exact ⟨⟨same, rfl⟩, rfl⟩
  | succ count ih =>
      have ticked := same.tick
      cases goesOn : r.tick.goesOn with
      | false =>
          rw [beats_of_ended goesOn, beats_of_ended (ticked.goesOn.symm.trans goesOn)]
          exact ⟨ticked, rfl⟩
      | true =>
          have goesOn' := ticked.goesOn.symm.trans goesOn
          cases refuses : clock.refuses (clock.delay period pace) with
          | true =>
              rw [beats_of_refused goesOn refuses, beats_of_refused goesOn' refuses]
              exact ⟨ticked, rfl⟩
          | false =>
              rw [beats_of_goesOn goesOn refuses, beats_of_goesOn goesOn' refuses]
              exact ih ticked.runner (clock.next period pace)

/-! ### Operations -/

theorem act (same : r.Matches r') (action : Keypad.Action) :
    (r.act action).Matches (r'.act action) :=
  ⟨congrArg (Machine.act · action) same.machine, same.cycles, same.fault⟩

theorem togglePause (same : r.Matches r') : r.togglePause.Matches r'.togglePause := by
  unfold Runner.togglePause
  rw [same.machine]
  exact ⟨rfl, same.cycles, same.fault⟩

/-- Runners that match answer an operation alike and go on to match. -/
theorem perform (same : r.Matches r') (o : Operation) :
    r.reply o = r'.reply o ∧ (r.perform o).Matches (r'.perform o) := by
  cases o with
  | step =>
      have verdict := congrArg Machine.verdict same.machine
      have stepped := congrArg Machine.stepped same.machine
      exact ⟨congrArg Reply.verdict verdict, (same.withMachine stepped).note _ _⟩
  | countDown => exact ⟨rfl, same.withMachine (congrArg Machine.countDown same.machine)⟩
  | act action => exact ⟨rfl, same.act action⟩
  | reset => exact ⟨rfl, same.withMachine (congrArg Machine.reset same.machine)⟩
  | loadFont => exact ⟨rfl, same.withMachine (congrArg Machine.loadFont same.machine)⟩
  | load program =>
      constructor
      · rw [reply, reply, same.machine]
      · simp only [Runner.perform, same.machine]
        cases r'.machine.load program with
        | ok loaded => exact (same.withMachine rfl).note _ _
        | error e => exact same
  | tick =>
      have ticked := same.tick
      exact ⟨ticked.reply (congrArg Reply.running ticked.runner.running), ticked.runner⟩
  | advance count =>
      have advanced := same.advance count
      exact ⟨advanced.reply (congrArg Reply.running advanced.runner.running), advanced.runner⟩
  | togglePause =>
      have toggled := same.togglePause
      have paused := congrArg Machine.paused toggled.machine
      exact ⟨congrArg Reply.paused paused, toggled⟩
  | run checks clock rate =>
      simp only [reply, Runner.perform, run]
      cases RateError.ofRate? rate with
      | some e => exact ⟨rfl, same⟩
      | none =>
          obtain ⟨paced, refused⟩ :=
            same.beats clock (1.0 / rate.toFloat) checks clock.start
          exact ⟨by simp only [Paced.reply, refused, paced.reply rfl], paced.runner⟩
  | switchProgram program noise =>
      simp only [reply, Runner.perform, switchProgram, same.machine]
      cases Machine.ofProgram r'.machine.mode noise program with
      | ok started => exact ⟨rfl, rfl, same.cycles, rfl⟩
      | error e => exact ⟨rfl, same⟩

/-- Runners that match answer all operations alike and go on to match. -/
theorem performAll (same : r.Matches r') (operations : List Operation) :
    r.replies operations = r'.replies operations ∧
      (r.performAll operations).Matches (r'.performAll operations) := by
  induction operations generalizing r r' with
  | nil => exact ⟨rfl, same⟩
  | cons o rest ih =>
      obtain ⟨answer, next⟩ := same.perform o
      obtain ⟨answers, last⟩ := ih next
      exact ⟨by rw [replies, replies, answer, answers], last⟩

end Matches

end Runner

end Chip8
