import Chip8.Proofs.Faults
import Chip8.Proofs.Footprint
import Chip8.Window

/-!
When a picture is due. A machine asks for a picture whenever its display may have changed, and
nothing but drawing the picture withdraws the request: between two pictures a machine either asks
for one or has the display that it had (`Machine.Announced`). Instructions keep to this, so steps,
runs and ticks do.

A runner announces the end of a fault in the same way: as long as no picture is asked for, a
remembered fault stands (`Runner.Announced`). Ticks and the events of a window keep to that as well,
a change of the program included (`Window.handleAll_announced`); what an event can come to at all is
said once (`Window.Handles`).
-/

namespace Chip8

namespace Machine

variable {m m' m'' : Machine} {i : Instruction} {n : Nat}

/-- A machine that asks for no picture, and is otherwise the same. -/
def settled (m : Machine) : Machine :=
  { m with redraw := false }

/-- What became of a machine is announced: a picture is asked for, or the display is the same and no
request was withdrawn. -/
def Announced (m m' : Machine) : Prop :=
  m'.redraw = true ∨ (m'.redraw = m.redraw ∧ m'.display = m.display)

namespace Announced

theorem refl (m : Machine) : m.Announced m :=
  .inr ⟨rfl, rfl⟩

/-- A request for a picture stays. -/
theorem redraw (announced : m.Announced m') (asked : m.redraw = true) : m'.redraw = true := by
  rcases announced with asks | ⟨same, -⟩
  · exact asks
  · rw [same, asked]

/-- A machine that asks for no picture asked for none before and has the display that it had. -/
theorem quiet (announced : m.Announced m') (quiet : m'.redraw = false) :
    m.redraw = false ∧ m'.display = m.display := by
  rcases announced with asks | ⟨redraw, display⟩
  · rw [quiet] at asks
    cases asks
  · exact ⟨redraw.symm.trans quiet, display⟩

theorem trans (first : m.Announced m') (second : m'.Announced m'') : m.Announced m'' := by
  cases asks : m''.redraw with
  | true => exact .inl asks
  | false =>
      obtain ⟨before, display⟩ := second.quiet asks
      obtain ⟨start, sameDisplay⟩ := first.quiet before
      exact .inr ⟨asks.trans start.symm, display.trans sameDisplay⟩

end Announced

/-- Clearing and drawing ask for a picture, and no other instruction touches the display. -/
theorem execute_announced (done : m.execute i = .ok m') : m.Announced m' := by
  have redraw := execute_redraw done
  rw [nextRedraw_eq] at redraw
  cases draws : i.draws with
  | true =>
      rw [draws] at redraw
      exact .inl redraw
  | false =>
      rw [draws] at redraw
      exact .inr ⟨redraw, (execute_touches done).display draws⟩

theorem step_announced (done : m.step.value = .ok (i, m')) : m.Announced m' := by
  rcases step_ok done with ⟨-, ⟨-, done⟩ | ⟨-, -, -, rfl⟩⟩
  · exact execute_announced done
  · exact .refl m

theorem after?_announced (all : m.after? n = some m') : m.Announced m' := by
  induction n generalizing m' with
  | zero =>
      cases all
      exact .refl m
  | succ n ih =>
      obtain ⟨before, i, start, result⟩ := after?_succ.mp all
      exact (ih start).trans (step_announced result)

/-- A run that no number broke off took whole steps only: a fault leaves the machine as it was. -/
theorem run_announced (unbroken : (m.run n).broken = none) : m.Announced (m.run n).machine := by
  rcases run_cases m n with ⟨reached, all⟩ | ⟨j, within, reached, e, start, failed⟩
  · rw [(run_of_after all).1]
    exact after?_announced all
  · obtain ⟨machine, -, broken, -⟩ := run_of_failure start failed within
    rw [broken] at unbroken
    cases cause : e.cause with
    | fault f =>
        rw [machine, (left_of_fault failed cause).2]
        exact after?_announced start
    | notAByte number =>
        rw [cause] at unbroken
        cases unbroken

end Machine

namespace Runner

variable {r r' r'' : Runner}

/-- What became of a runner is announced: its machine keeps to it, and a remembered fault stands
unless a picture is asked for. -/
structure Announced (r r' : Runner) : Prop where
  machine : r.machine.Announced r'.machine
  fault : ∀ f, r.fault = some f → r'.fault = some f ∨ r'.machine.redraw = true

namespace Announced

theorem refl (r : Runner) : r.Announced r where
  machine := .refl r.machine
  fault _ stopped := .inl stopped

theorem trans (first : r.Announced r') (second : r'.Announced r'') : r.Announced r'' where
  machine := first.machine.trans second.machine
  fault f stopped := by
    rcases first.fault f stopped with stands | asks
    · exact second.fault f stands
    · exact .inr (second.machine.redraw asks)

/-- While no fault is remembered none can end. -/
theorem of_running (running : r.fault = none) (machine : r.machine.Announced r'.machine) :
    r.Announced r' where
  machine := machine
  fault f stopped := by
    rw [running] at stopped
    cases stopped

end Announced

theorem batch_announced {n : Nat} (unbroken : (r.batch n).broken = none) :
    r.Announced (r.batch n).runner := by
  cases running : r.fault with
  | some f =>
      rw [batch_of_stopped running]
      exact .refl r
  | none =>
      obtain ⟨machine, -, broken⟩ := batch_of_running running n
      refine .of_running running ?_
      rw [machine]
      exact Machine.run_announced (broken ▸ unbroken)

/-- Counting the timers down touches neither the display nor the fault. -/
theorem tick_announced (unbroken : r.tick.broken = none) : r.Announced r.tick.runner := by
  rcases tick_cases r with ⟨-, tick⟩ | ⟨whole, -, tick⟩ | tick
  · rw [tick]
    exact .refl r
  · have worked := batch_announced whole
    rw [tick]
    exact ⟨worked.machine, worked.fault⟩
  · rw [tick] at unbroken ⊢
    exact batch_announced unbroken

end Runner

namespace Window

variable {tree : FileTree} {w next : Window}

/-! ### Events -/

/-- What an event that is taken without an error can come to. The journal may grow and the session
may come to its end; keys and the pause reach the machine; and a program that is taken for the next
starts a machine that asks for a picture. -/
inductive Handles (w : Window) : Window → Prop where
  | kept (journal : List Notice) (quit : Bool) :
      Handles w { w with runner := { w.runner with journal := journal }, quit := quit }
  | acted (action : Keypad.Action) : Handles w { w with runner := w.runner.act action }
  | toggled : Handles w { w with runner := w.runner.togglePause }
  | switched {r switched : Runner} {program : List Byte} (caption : String) (position : Nat)
      (accepted : r.switchProgram program (w.sources 0) = .ok switched) :
      Handles w { w with
        runner := { switched with machine := { switched.machine with redraw := true } }
        frame := { w.frame with caption := caption }
        position := position
        sources := fun k => w.sources (k + 1) }

theorem nextProgram_handles (done : w.nextProgram tree = .ok next) : w.Handles next := by
  unfold nextProgram at done
  simp only at done
  split at done
  · cases done
    exact .kept _ _
  · split at done
    · cases done
    · cases done
      exact .kept _ _
    · split at done <;> cases done
      · exact .kept _ _
      · rename_i accepted
        exact .switched _ _ accepted

theorem forward_handles (w : Window) (name : String) (action : Int → Keypad.Action) :
    w.Handles (w.forward name action) := by
  unfold forward
  split
  · exact .acted _
  · exact .kept _ _

theorem handle_handles {event : Event} (done : w.handle tree event = .ok next) :
    w.Handles next := by
  cases event with
  | close | other =>
      cases done
      exact .kept _ _
  | keyDown name =>
      simp only [handle] at done
      split at done
      · cases done
        exact .kept _ _
      · split at done
        · cases done
          exact .toggled
        · split at done
          · exact nextProgram_handles done
          · cases done
            exact forward_handles w name .press
  | keyUp name =>
      simp only [handle] at done
      split at done <;> cases done
      · exact .kept _ _
      · exact forward_handles w name .release

/-- What every event keeps, events in a row keep. -/
theorem handleAll_keeps {P : Window → Prop} (keep : ∀ w next, P w → w.Handles next → P next)
    (start : P w) {events : List Event} (done : w.handleAll tree events = (next, none)) :
    P next := by
  induction events generalizing w with
  | nil =>
      cases done
      exact start
  | cons event rest ih =>
      simp only [handleAll] at done
      cases handled : w.handle tree event with
      | error e =>
          rw [handled] at done
          cases done
      | ok middle =>
          rw [handled] at done
          exact ih (keep _ _ start (handle_handles handled)) done

theorem Handles.announced (handles : w.Handles next) :
    w.runner.Announced next.runner ∧ next.frame.scale = w.frame.scale := by
  cases handles with
  | switched caption position accepted => exact ⟨⟨.inl rfl, fun _ _ => .inr rfl⟩, rfl⟩
  | _ => exact ⟨⟨.refl _, fun _ stopped => .inl stopped⟩, rfl⟩

theorem handleAll_announced {events : List Event} (done : w.handleAll tree events = (next, none)) :
    w.runner.Announced next.runner ∧ next.frame.scale = w.frame.scale := by
  refine handleAll_keeps (P := fun later =>
    w.runner.Announced later.runner ∧ later.frame.scale = w.frame.scale) ?_ ⟨.refl _, rfl⟩ done
  intro middle later before handles
  obtain ⟨announced, scale⟩ := handles.announced
  exact ⟨before.1.trans announced, scale.trans before.2⟩

end Window

end Chip8
