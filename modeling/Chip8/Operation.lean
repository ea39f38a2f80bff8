import Chip8.Runner

/-!
What can be done to a runner and its machine from outside, and what is answered. An operation that
is refused, or that comes to an end before its time, leaves the runner as it was by then.
-/

namespace Chip8

/-- One operation: on the machine itself, on its keypad, or on the runner. -/
inductive Operation where
  | step
  | countDown
  | act (action : Keypad.Action)
  | reset
  | loadFont
  | load (program : List Byte)
  | tick
  | advance (count : Int)
  | togglePause
  | run (checks : Nat) (clock : Clock) (rate : Quantity)
  | switchProgram (program : List Byte) (noise : Noise)

/-- The answer to an operation: nothing; the verdict on a step; whether the machine is still
running, or paused; the machine that a change of the program started; or why the operation was
refused or broken off, which for a clock can be a wait that is too long. -/
inductive Reply where
  | done
  | verdict (v : Verdict)
  | running (flag : Bool)
  | paused (flag : Bool)
  | started (machine : Machine)
  | notAByte (e : NotAByte)
  | tooLarge (e : TooLarge)
  | rate (e : RateError)
  | waitTooLong (delay : Float)

/-- The answer to a stint of work: the number that broke it off, or what it is to answer else. -/
def Stint.reply (s : Stint) (whole : Reply) : Reply :=
  match s.broken with
  | some e => .notAByte e
  | none => whole

def Paced.reply (p : Paced) : Reply :=
  match p.refused with
  | some delay => .waitTooLong delay
  | none => p.stint.reply .done

namespace Runner

def withMachine (r : Runner) (m : Machine) : Runner :=
  { r with machine := m }

def perform (r : Runner) : Operation → Runner
  | .step => (r.withMachine r.machine.stepped).note r.machine.step.notices
  | .countDown => r.withMachine r.machine.countDown
  | .act action => r.act action
  | .reset => r.withMachine r.machine.reset
  | .loadFont => r.withMachine r.machine.loadFont
  | .load program =>
      match r.machine.load program with
      | .ok loaded => (r.withMachine loaded).note [.programLoaded program.length]
      | .error _ => r
  | .tick => r.tick.runner
  | .advance count => (r.advance count).runner
  | .togglePause => r.togglePause
  | .run checks clock rate =>
      match r.run checks clock rate with
      | .ok paced => paced.stint.runner
      | .error _ => r
  | .switchProgram program noise =>
      match r.switchProgram program noise with
      | .ok switched => switched
      | .error _ => r

/-- The runner after operations in order. -/
def performAll (r : Runner) (operations : List Operation) : Runner :=
  operations.foldl perform r

def reply (r : Runner) : Operation → Reply
  | .step => .verdict r.machine.verdict
  | .countDown | .act _ | .reset | .loadFont => .done
  | .load program =>
      match r.machine.load program with
      | .ok _ => .done
      | .error e => .tooLarge e
  | .tick => r.tick.reply (.running r.tick.runner.running)
  | .advance count => (r.advance count).reply (.running (r.advance count).runner.running)
  | .togglePause => .paused r.togglePause.machine.paused
  | .run checks clock rate =>
      match r.run checks clock rate with
      | .ok paced => paced.reply
      | .error e => .rate e
  | .switchProgram program noise =>
      match r.switchProgram program noise with
      | .ok switched => .started switched.machine
      | .error e => .tooLarge e

/-- What operations in order answer, one after the other. -/
def replies (r : Runner) : List Operation → List Reply
  | [] => []
  | o :: rest => r.reply o :: (r.perform o).replies rest

end Runner

end Chip8
