import Chip8.CommandLine
import Chip8.Window

/-!
The program behind the command line. It reads the settings, fetches the machine's program from the
file tree, and runs the machine either without a window for a number of instructions or in a window
until its session ends. All it prints is collected in a report: the notices that are wanted, then
what the two ways of running have to show.
-/

namespace Chip8

namespace Program

inductive Ending where
  | exit (code : Nat)
  | help
  | usage (e : CommandLine.UsageError)
  | failed (e : Failure)
  deriving DecidableEq, Repr

/-- What came of a run of the program: its ending, the texts it printed as output and as errors,
each with an end of line, the runner, and the window as it was opened and after each pass. -/
structure Report where
  ending : Ending
  out : List String := []
  err : List String := []
  runner : Option Runner := none
  opening : Option Window.Pass := none
  passes : List Window.Pass := []

/-- The settings, the machine with its program, and the notices up to there, oldest first. -/
structure Start where
  settings : Settings
  machine : Machine
  notices : List Notice

def logLine (notice : Notice) : String :=
  "[" ++ notice.level.text ++ "]:  " ++ notice.message

/-- The texts of the notices that the settings ask for. -/
def logged (settings : Settings) (notices : List Notice) : List String :=
  (Notice.atLeast (if settings.verbose then .debug else .info) notices).map logLine

/-- Makes everything ready for a run. -/
def start (tree : FileTree) (noise : Noise) (words : List String) : Except Report Start :=
  match CommandLine.parse words with
  | .error .help => .error { ending := .help }
  | .error (.refused e) => .error { ending := .usage e }
  | .ok settings =>
      let made := ProgramFile.machine tree settings.program settings.mode noise
      let out := logged settings made.notices
      match made.value with
      | .ok machine => .ok ⟨settings, machine, made.notices⟩
      | .error (.unreadable e) => .error { ending := .failed (.file e), out := out }
      | .error (.refused refusal) =>
          .error { ending := .exit 2, out := out, err := ["Error: " ++ refusal.message] }

/-- The number that an option was left with. -/
def given (dial : CommandLine.Dial) (number : Option Int) : Except Failure Int :=
  match number with
  | some n => .ok n
  | none => .error (.unset dial)

/-- How a run that came to its end is reported: a fault is told as an error. -/
def ended (runner : Runner) (out : List String) : Report :=
  match runner.fault with
  | none => { ending := .exit 0, out := out, runner := some runner }
  | some fault =>
      { ending := .exit 1, out := out, err := ["Halted: " ++ fault.message],
        runner := some runner }

/-! ### Without a window -/

def rowText (row : List Bool) : String :=
  String.ofList (row.map fun lit => if lit then '#' else '.')

def skippedText (skipped : Int) : List String :=
  if skipped = 0 then [] else ["Skipped " ++ toString skipped ++ " malformed opcode(s)"]

/-- What is printed about a machine after its run: the display, the state, the skipped words. -/
def lastState (machine : Machine) : List String :=
  machine.display.rows.map rowText ++ [machine.dump] ++ skippedText machine.skipped

/-- Runs the machine for the number of steps and prints its last state. -/
def headless (s : Start) : Report :=
  let started := logged s.settings s.notices ++ ["Starting headless run"]
  match given .steps s.settings.steps with
  | .error e => { ending := .failed e, out := started }
  | .ok steps =>
      let stint := Runner.headless s.machine steps Runner.defaultCycles
      let ran := started ++ logged s.settings stint.runner.journal.reverse
      match stint.broken with
      | some e => { ending := .failed (.notAByte e), out := ran, runner := some stint.runner }
      | none => ended stint.runner (ran ++ lastState stint.runner.machine)

/-! ### In a window -/

/-- The samples for the window's speaker, if there is one; the tone is asked for only then. -/
def speaker (toolkit : Toolkit) (audible : Bool) (settings : Settings) :
    Except Failure (Option (List Int)) :=
  if audible then do
    let tone ← given .tone settings.tone
    let samples ← (Tone.samples toolkit { pitch := .whole tone }).mapError .tone
    return some samples
  else .ok none

/-- Opens the window on the machine, with the program files next to its own. -/
def window (tree : FileTree) (toolkit : Toolkit) (sources : Nat → Noise) (audible : Bool)
    (s : Start) : Except Failure Window.Pass := do
  let settings := s.settings
  let clock ← given .clock settings.clock
  let programs ← (ProgramFile.neighbours tree settings.program).mapError .file
  let scale ← given .scale settings.scale
  let frame ← (Frame.made toolkit scale (Path.title settings.program)).mapError .frame
  let samples ← speaker toolkit audible settings
  let runner := (Runner.new s.machine (clock / Runner.ticksPerSecond)).note s.notices
  let (window, orders) := Window.opened runner frame programs sources samples
  return ⟨window, orders⟩

def closed (settings : Settings) (session : Window.Session) : Report :=
  let runner := session.window.runner
  let out := logged settings runner.journal.reverse
  match session.failure with
  | none => ended runner out
  | some e => { ending := .failed e, out := out, runner := some runner }

/-- Runs the machine in a window, one pass for each batch of events and a last one. -/
def windowed (tree : FileTree) (toolkit : Toolkit) (sources : Nat → Noise) (audible : Bool)
    (batches : List (List Event)) (s : Start) : Report :=
  match window tree toolkit sources audible s with
  | .error e => { ending := .failed e, out := logged s.settings s.notices }
  | .ok opening =>
      let session := opening.window.session tree batches
      { closed s.settings session with opening := some opening, passes := session.passes }

/-- Runs the program on a command line. Its first machine draws on the first random source, and each
that a window starts draws on the next. -/
def run (tree : FileTree) (toolkit : Toolkit) (sources : Nat → Noise) (audible : Bool)
    (batches : List (List Event)) (words : List String) : Report :=
  match start tree (sources 0) words with
  | .error report => report
  | .ok s =>
      if s.settings.headless then headless s
      else windowed tree toolkit (fun k => sources (k + 1)) audible batches s

end Program

end Chip8
