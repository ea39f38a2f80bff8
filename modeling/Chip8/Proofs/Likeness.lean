import Chip8.Proofs.Agreement
import Chip8.Proofs.Ranges
import Chip8.Proofs.Redraw

/-!
The request for a picture is for the window alone: no instruction looks at it. So machines that
agree but for the request take the same steps (`Machine.step_alike`), and runs, batches and ticks
keep runners alike (`Run.Alike`, `Runner.Alike`).

Nothing breaks off the work of a well-formed machine, so ticks in a row can be counted from the
front (`Runner.ticks_succ`).
-/

namespace Chip8

namespace Machine

variable {m m' : Machine} {i : Instruction}

/-- To be the same when settled is to agree but for the request for a picture. -/
theorem agreesBut_redraw_iff : m.AgreesBut [.redraw] m' ↔ m.settled = m'.settled := by
  rw [agreesBut_iff]
  constructor
  · rintro ⟨update, -⟩
    rw [update]
    rfl
  · intro alike
    have update : m' = { m'.settled with redraw := m'.redraw } := rfl
    rw [← alike] at update
    rw [update]
    exact ⟨rfl, rfl⟩

/-- Machines that are alike but for the request for a picture take the same step. -/
theorem step_alike (alike : m.settled = m'.settled) :
    (∃ i after after', m.step.value = .ok (i, after) ∧ m'.step.value = .ok (i, after') ∧
        after.settled = after'.settled) ∨
      ∃ e e', m.step.value = .error e ∧ m'.step.value = .error e' ∧ e.cause = e'.cause ∧
        e.left.settled = e'.left.settled := by
  have agrees := agreesBut_redraw_iff.mpr alike
  obtain ⟨same, agree⟩ := agrees.stepped (blindTo_of_tight (by simp) (by simp) m)
  have sameLeft := agreesBut_redraw_iff.mp agree
  cases first : m.step.value with
  | ok done =>
      obtain ⟨i, after⟩ := done
      obtain ⟨verdict, stepped⟩ := verdict_of_ok first
      cases second : m'.step.value with
      | ok done' =>
          obtain ⟨i', after'⟩ := done'
          obtain ⟨verdict', stepped'⟩ := verdict_of_ok second
          rw [verdict, verdict'] at same
          rw [stepped, stepped'] at sameLeft
          cases same
          exact .inl ⟨i, after, after', rfl, rfl, sameLeft⟩
      | error e' =>
          rw [verdict, (verdict_of_error second).1] at same
          cases same
  | error e =>
      obtain ⟨verdict, stepped⟩ := verdict_of_error first
      cases second : m'.step.value with
      | ok done' =>
          rw [verdict, (verdict_of_ok second).1] at same
          cases same
      | error e' =>
          obtain ⟨verdict', stepped'⟩ := verdict_of_error second
          rw [verdict, verdict'] at same
          rw [stepped, stepped'] at sameLeft
          exact .inr ⟨e, e', rfl, rfl, Except.error.inj same, sameLeft⟩

end Machine

namespace Run

variable {run run' : Run}

/-- Two runs are alike: they are at the same machine but for the request for a picture, and they
have ended in the same way if at all. -/
structure Alike (run run' : Run) : Prop where
  machine : run.machine.settled = run'.machine.settled
  fault : run.fault = run'.fault
  broken : run.broken = run'.broken

theorem Alike.step (alike : Alike run run') : Alike run.step run'.step := by
  have sameEnd : run.ended = run'.ended := by rw [ended, ended, alike.fault, alike.broken]
  cases unended : run.ended with
  | true =>
      rw [step_of_ended unended, step_of_ended (sameEnd ▸ unended)]
      exact alike
  | false =>
      have unended' : run'.ended = false := sameEnd ▸ unended
      rcases Machine.step_alike alike.machine with
        ⟨i, after, after', first, second, same⟩ | ⟨e, e', first, second, cause, left⟩
      · obtain ⟨machine, fault, broken, -⟩ := step_of_ok unended first
        obtain ⟨machine', fault', broken', -⟩ := step_of_ok unended' second
        exact ⟨by rw [machine, machine', same], by rw [fault, fault'], by rw [broken, broken']⟩
      · obtain ⟨machine, fault, broken, -⟩ := step_of_error unended first
        obtain ⟨machine', fault', broken', -⟩ := step_of_error unended' second
        exact ⟨by rw [machine, machine', left], by rw [fault, fault', cause],
          by rw [broken, broken', cause]⟩

end Run

namespace Machine

theorem run_alike {m m' : Machine} (alike : m.settled = m'.settled) (n : Nat) :
    Run.Alike (m.run n) (m'.run n) := by
  induction n with
  | zero => exact ⟨alike, rfl, rfl⟩
  | succ n ih =>
      rw [run_succ, run_succ]
      exact ih.step

end Machine

namespace Runner

variable {r r' : Runner}

/-- Two runners are alike: they have the same machine but for the request for a picture, and they
remember the same fault. -/
structure Alike (r r' : Runner) : Prop where
  machine : r.machine.settled = r'.machine.settled
  fault : r.fault = r'.fault

namespace Alike

theorem refl (r : Runner) : Alike r r :=
  ⟨rfl, rfl⟩

theorem trans {r'' : Runner} (first : Alike r r') (second : Alike r' r'') : Alike r r'' :=
  ⟨first.machine.trans second.machine, first.fault.trans second.fault⟩

theorem symm (alike : Alike r r') : Alike r' r :=
  ⟨alike.machine.symm, alike.fault.symm⟩

theorem paused (alike : Alike r r') : r.machine.paused = r'.machine.paused := by
  have same := congrArg Machine.paused alike.machine
  exact same

theorem countDown (alike : Alike r r') : Alike r.countDown r'.countDown :=
  ⟨congrArg Machine.countDown alike.machine, alike.fault⟩

theorem batch (alike : Alike r r') (n : Nat) :
    Alike (r.batch n).runner (r'.batch n).runner ∧ (r.batch n).broken = (r'.batch n).broken := by
  cases stopped : r.fault with
  | some f =>
      rw [batch_of_stopped stopped, batch_of_stopped (alike.fault ▸ stopped)]
      exact ⟨alike, rfl⟩
  | none =>
      have running' : r'.fault = none := alike.fault ▸ stopped
      obtain ⟨machine, fault, broken⟩ := batch_of_running stopped n
      obtain ⟨machine', fault', broken'⟩ := batch_of_running running' n
      obtain ⟨sameMachine, sameFault, sameBroken⟩ := Machine.run_alike alike.machine n
      exact ⟨⟨by rw [machine, machine', sameMachine], by rw [fault, fault', sameFault]⟩,
        by rw [broken, broken', sameBroken]⟩

theorem tick (alike : Alike r r') (length : r.cycles = r'.cycles) :
    Alike r.tick.runner r'.tick.runner := by
  cases paused : r.machine.paused with
  | true =>
      rw [tick_of_paused paused, tick_of_paused (alike.paused ▸ paused)]
      exact alike
  | false =>
      obtain ⟨worked, broken⟩ := alike.batch r.cycles
      have goesOn : (r.batch r.cycles).goesOn = (r'.batch r.cycles).goesOn := by
        rw [Stint.goesOn, Stint.goesOn, running, running, worked.fault, broken]
      rw [tick_of_unpaused paused, tick_of_unpaused (alike.paused ▸ paused), ← length, goesOn]
      split
      · exact worked.countDown
      · exact worked

end Alike

/-! ### Whole ticks -/

/-- Ticks can be counted from the front, since those behind a fault change nothing. -/
theorem ticks_succ (wf : r.machine.WellFormed) (n : Nat) :
    ticks (n + 1) r = ticks n r.tick.runner := by
  have unbroken := tick_unbroken wf
  rw [ticks]
  cases stopped : r.tick.runner.fault with
  | none => rw [Stint.andThen_of_goesOn (Stint.goesOn_iff.mpr ⟨unbroken, stopped⟩)]
  | some f =>
      rw [Stint.andThen_of_ended (Stint.goesOn_of_fault stopped), ticks_of_stopped stopped,
        ← unbroken]

theorem tick_wellFormed (wf : r.machine.WellFormed) : r.tick.runner.machine.WellFormed :=
  tick_keeps (fun _ wf => wf.stepped) (fun _ wf => wf.countDown) wf

theorem ticks_wellFormed (wf : r.machine.WellFormed) (n : Nat) :
    (ticks n r).runner.machine.WellFormed :=
  ticks_keeps (fun _ wf => wf.stepped) (fun _ wf => wf.countDown) wf n

theorem ticks_unbroken (wf : r.machine.WellFormed) (n : Nat) : (ticks n r).broken = none := by
  induction n generalizing r with
  | zero => rfl
  | succ n ih =>
      rw [ticks_succ wf]
      exact ih (tick_wellFormed wf)

theorem Alike.wellFormed (alike : Alike r r') (wf : r.machine.WellFormed) :
    r'.machine.WellFormed := by
  have same : r'.machine.settled.WellFormed := alike.machine ▸ (⟨wf.bytes, wf.depth⟩)
  exact ⟨same.bytes, same.depth⟩

theorem Alike.ticks (alike : Alike r r') (length : r.cycles = r'.cycles)
    (wf : r.machine.WellFormed) (n : Nat) : Alike (ticks n r).runner (ticks n r').runner := by
  induction n generalizing r r' with
  | zero => exact alike
  | succ n ih =>
      rw [ticks_succ wf, ticks_succ (alike.wellFormed wf)]
      exact ih (alike.tick length) (by rw [tick_cycles, tick_cycles, length]) (tick_wellFormed wf)

end Runner

end Chip8
