import Chip8.Execution
import Chip8.Quantity

/-!
Running a machine in time. A runner lets its machine work in ticks: one batch of instructions, then
one count of the timers. It remembers the fault that stopped the machine and keeps a journal of what
was noticed, newest first. A paused or stopped machine is left alone; only a change of program ends
a fault. Work that a store broke off is not remembered as a fault: it is told with the work.

A clock lets the machine tick until it is told to stop. It waits for the time that is left to the
next beat, and where it has fallen behind it starts anew from the present. How long it may wait is
up to the one who stops it, and a wait beyond this breaks the work off.
-/

namespace Chip8

/-- A machine, the length of a batch, the fault that stopped the machine, and the journal. -/
structure Runner where
  machine : Machine
  cycles : Nat
  cycles_pos : 0 < cycles
  fault : Option Fault := none
  journal : List Notice := []

/-- A stint of work: the runner after it, and the number that broke the work off, if one did. -/
structure Stint where
  runner : Runner
  broken : Option NotAByte := none

/-- What a clock goes by: the readings of its watch in seconds, one after the other, and the longest
wait that it is allowed, if there is one. -/
structure Clock where
  reading : Nat → Float
  longest : Option Float := none

/-- Where a clock has got to: the time of the last beat, and the readings taken. -/
structure Pace where
  last : Float
  taken : Nat

/-- What came of a clock: its stint of work, and the wait that it was refused, if it was. -/
structure Paced where
  stint : Stint
  refused : Option Float := none

/-- Why a clock has no period. -/
inductive RateError where
  | zero
  | tooLarge
  deriving DecidableEq, Repr

namespace RateError

def message : RateError → String
  | .zero => "a clock with a rate of zero has no period"
  | .tooLarge => "the rate of the clock is too large"

/-- What is wrong with a rate, if anything is. -/
def ofRate? : Quantity → Option RateError
  | .whole n =>
      if n = 0 then some .zero
      else if (Quantity.whole n).fitsFloat then none
      else some .tooLarge
  | .float x => if x == 0 then some .zero else none

end RateError

namespace Clock

def start (clock : Clock) : Pace :=
  ⟨clock.reading 0, 1⟩

/-- The time that is left to the next beat. -/
def delay (clock : Clock) (period : Float) (pace : Pace) : Float :=
  pace.last + period - clock.reading pace.taken

/-- The pace behind a beat; one that comes too late is replaced by the present. -/
def next (clock : Clock) (period : Float) (pace : Pace) : Pace :=
  if 0 < clock.delay period pace then ⟨pace.last + period, pace.taken + 1⟩
  else ⟨clock.reading (pace.taken + 1), pace.taken + 2⟩

/-- Is there a wait, and is it too long? -/
def refuses (clock : Clock) (delay : Float) : Bool :=
  0 < delay && clock.longest.any (· < delay)

end Clock

namespace Runner

/-- Instructions in a tick, if nothing else is asked for. -/
def defaultCycles : Int := 10

def ticksPerSecond : Int := 60

theorem max_one_pos (cycles : Int) : 0 < max 1 cycles.toNat := by
  omega

/-- A runner of a machine; a batch has at least one instruction. -/
def new (machine : Machine) (cycles : Int) : Runner where
  machine := machine
  cycles := max 1 cycles.toNat
  cycles_pos := max_one_pos cycles

def running (r : Runner) : Bool :=
  r.fault.isNone

/-- Adds notices, given oldest first, to the journal. -/
def note (r : Runner) (notices : List Notice) : Runner :=
  { r with journal := notices.reverse ++ r.journal }

/-- Runs a number of instructions, whether paused or not. The first fault ends the batch and stops
the runner. -/
def batch (r : Runner) (count : Nat) : Stint :=
  match r.fault with
  | some _ => { runner := r }
  | none =>
      let run := r.machine.run count
      let halts := run.fault.map fun fault => Notice.halted fault run.machine.dump
      let runner := { r with
        machine := run.machine
        fault := run.fault
        journal := halts.toList ++ run.notices ++ r.journal }
      { runner := runner, broken := run.broken }

def countDown (r : Runner) : Runner :=
  { r with machine := r.machine.countDown }

end Runner

namespace Stint

/-- Can the work go on? It can if nothing broke it off and no fault has stopped the machine. -/
def goesOn (s : Stint) : Bool :=
  s.broken.isNone && s.runner.running

/-- Goes on with more work, if the work can go on. -/
def andThen (s : Stint) (more : Runner → Stint) : Stint :=
  if s.goesOn then more s.runner else s

end Stint

namespace Runner

/-- One tick: a batch and then a count of the timers, unless the machine is paused. -/
def tick (r : Runner) : Stint :=
  if r.machine.paused then { runner := r }
  else (r.batch r.cycles).andThen fun worked => { runner := worked.countDown }

/-- A number of instructions without a count of the timers, unless the machine is paused. -/
def advance (r : Runner) (count : Int) : Stint :=
  if r.machine.paused then { runner := r } else r.batch count.toNat

/-- At most `count` ticks, ending with the first after which the work cannot go on. -/
def ticks : Nat → Runner → Stint
  | 0, r => { runner := r }
  | count + 1, r => r.tick.andThen (ticks count)

/-- At most `count` beats of a clock from a pace on. Behind each tick after which the work can go on
the clock waits, unless the wait is refused. -/
def beats (clock : Clock) (period : Float) : Nat → Pace → Runner → Paced
  | 0, _, r => { stint := { runner := r } }
  | count + 1, pace, r =>
      if r.tick.goesOn then
        let delay := clock.delay period pace
        if clock.refuses delay then { stint := r.tick, refused := some delay }
        else beats clock period count (clock.next period pace) r.tick.runner
      else { stint := r.tick }

/-- The beats of a clock at a rate until it is told to stop, which is seen at the check behind the
given number of checks. A clock without a period cannot be started. -/
def run (r : Runner) (checks : Nat) (clock : Clock) (rate : Quantity) : Except RateError Paced :=
  match RateError.ofRate? rate with
  | some e => .error e
  | none => .ok (beats clock (1.0 / rate.toFloat) checks clock.start r)

/-- Pauses a machine at work, or lets a paused one go on. -/
def togglePause (r : Runner) : Runner :=
  let paused := !r.machine.paused
  { r with machine := { r.machine with paused := paused } }.note
    [if paused then .paused else .resumed]

def act (r : Runner) (action : Keypad.Action) : Runner :=
  { r with machine := r.machine.act action }.note action.notices

/-- Starts a fresh machine with another program, in the mode of the old one and on a random source
of its own. A program that is too long changes nothing. -/
def switchProgram (r : Runner) (program : List Byte) (noise : Noise) :
    Except TooLarge Runner := do
  let machine ← Machine.ofProgram r.machine.mode noise program
  let size := program.length
  return { r with machine := machine, fault := none }.note
    [.programLoaded size, .programSwitched size]

/-- Runs a number of instructions in whole ticks, then those that are left over. -/
def headless (machine : Machine) (steps cycles : Int) : Stint :=
  let r := new machine cycles
  (ticks (steps.toNat / r.cycles) r).andThen (·.advance (steps.toNat % r.cycles))

end Runner

end Chip8
