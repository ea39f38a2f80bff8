import Chip8.CommandLine
import Chip8.ProgramFile
import Chip8.Runner
import Chip8.Screen

/-!
A window around a runner: keys of the keyboard reach the keypad, `p` pauses, `o` goes on to the next
program of a list, and Escape or closing the window ends the session. A window answers with orders
to the screen and the speaker. In every pass it takes its events, lets the machine work for one
tick, opens or closes the sound gate, and draws if the machine asks for it or an overlay is due.

A session can break off without a fault of the machine: a file cannot be read for a reason other
than that it is missing, a number that is needed was taken away on the command line, the window gets
no frame, the beep cannot be made, or a machine stores a number that is no byte.
-/

namespace Chip8

inductive Failure where
  | file (e : FileError)
  | unset (dial : CommandLine.Dial)
  | frame (e : FrameError)
  | tone (e : ToneError)
  | notAByte (e : NotAByte)
  deriving DecidableEq, Repr

namespace Failure

def message : Failure → String
  | .file e => e.message
  | .unset dial => "no number for " ++ (CommandLine.Choice.dial dial).text
  | .frame e => e.message
  | .tone e => e.message
  | .notAByte e => e.message

end Failure

/-- What a window tells its surroundings to do. The tone is played once and then as often again as
the order says, or without an end. -/
inductive Order where
  | requestSound
  | giveSamples (samples : List Int)
  | setVolume
  | play (loops : Int)
  | stop
  | draw (drawing : Drawing)
  deriving DecidableEq, Repr

/-- What happens to a window. Keys go by the names on the keyboard. -/
inductive Event where
  | keyDown (name : String)
  | keyUp (name : String)
  | close
  | other
  deriving DecidableEq, Repr

/-- A window: its runner, its frame, the programs it goes through, the random sources of the
machines to come, which program it runs, whether there is a speaker and whether it sounds, and
whether the session is to end. -/
structure Window where
  runner : Runner
  frame : Frame
  programs : List String
  sources : Nat → Noise
  position : Nat := 0
  audible : Bool
  beeping : Bool := false
  quit : Bool := false

/-- The keys of the keyboard that stand for the keypad: the block of four rows below 1 to 4. -/
def keyboard : List (String × Key) :=
  [("1", 0x1), ("2", 0x2), ("3", 0x3), ("4", 0xC),
    ("q", 0x4), ("w", 0x5), ("e", 0x6), ("r", 0xD),
    ("a", 0x7), ("s", 0x8), ("d", 0x9), ("f", 0xE),
    ("z", 0xA), ("x", 0x0), ("c", 0xB), ("v", 0xF)]

namespace Window

/-- The side of a pixel, if nothing else is asked for. -/
def defaultScale : Int := 10

def defaultCaption : String := "chip8vm"

def defaultPitch : Quantity := .whole 440

/-- The number of loops that stands for a tone without an end. -/
def endless : Int := -1

def machine (w : Window) : Machine := w.runner.machine

/-- Opens a window in a frame, and hands the samples of the beep to its speaker if there is one. -/
def opened (runner : Runner) (frame : Frame) (programs : List String) (sources : Nat → Noise)
    (speaker : Option (List Int)) : Window × List Order :=
  let sound := match speaker with
    | some samples => [.giveSamples samples, .setVolume]
    | none => []
  let runner := if speaker.isSome then runner else runner.note [.soundUnavailable]
  let window : Window :=
    { runner, frame, programs, sources, audible := speaker.isSome }
  (window, .requestSound :: sound)

/-! ### Events -/

/-- Goes on to the next program of the list, which is a circle. A program that is refused leaves the
window as it was, with a notice of it. -/
def nextProgram (tree : FileTree) (w : Window) : Except FileError Window :=
  let position := (w.position + 1) % w.programs.length
  match w.programs[position]? with
  | none => .ok w
  | some path =>
      let keep (runner : Runner) (refusal : Refusal) : Window :=
        { w with runner := runner.note [.programKept refusal.message] }
      match ProgramFile.read tree path with
      | .error (.unreadable e) => .error e
      | .error (.refused refusal) => .ok (keep w.runner refusal)
      | .ok program =>
          let runner := w.runner.note [.fileRead program.length path]
          match runner.switchProgram program (w.sources 0) with
          | .error e => .ok (keep runner (.tooLarge e))
          | .ok switched =>
              let drawn := { switched with machine := { switched.machine with redraw := true } }
              let frame := { w.frame with caption := Path.title path }
              .ok { w with
                runner := drawn
                frame := frame
                position := position
                sources := fun k => w.sources (k + 1) }

/-- Passes a key on to the keypad, if it stands for one of its keys. -/
def forward (w : Window) (name : String) (action : Int → Keypad.Action) : Window :=
  match keyboard.lookup name with
  | some key => { w with runner := w.runner.act (action key.val) }
  | none => w

def handle (tree : FileTree) (w : Window) : Event → Except FileError Window
  | .close => .ok { w with quit := true }
  | .other => .ok w
  | .keyDown name =>
      if name = "ESCAPE" then .ok { w with quit := true }
      else if name = "p" then .ok { w with runner := w.runner.togglePause }
      else if name = "o" then w.nextProgram tree
      else .ok (w.forward name .press)
  | .keyUp name =>
      if name = "ESCAPE" then .ok { w with quit := true } else .ok (w.forward name .release)

/-- Takes events in order. An error ends them and keeps what was done before it. -/
def handleAll (tree : FileTree) (w : Window) : List Event → Window × Option FileError
  | [] => (w, none)
  | event :: rest =>
      match w.handle tree event with
      | .ok next => handleAll tree next rest
      | .error e => (w, some e)

/-! ### Sound and picture -/

/-- Opens the sound gate while a sound timer runs and closes it when the timer has run down. -/
def gate (w : Window) (sound : Int) : Window × List Order :=
  if !w.audible then (w, [])
  else if 0 < sound ∧ !w.beeping then ({ w with beeping := true }, [.play endless])
  else if sound = 0 ∧ w.beeping then ({ w with beeping := false }, [.stop])
  else (w, [])

def overlay (w : Window) (view : View) : Option Overlay :=
  if !w.runner.running then some .halted else if view.paused then some .paused else none

def render (w : Window) (view : View) : List Order :=
  (Drawing.picture w.frame.scale view.display (w.overlay view)).map .draw

def drawingDue (w : Window) : Bool :=
  w.machine.redraw || w.machine.paused || !w.runner.running

/-- Draws if a picture is due, and then none is due for the machine. -/
def drawIfDue (w : Window) : Window × List Order :=
  if w.drawingDue then
    ({ w with runner := { w.runner with machine := { w.machine with redraw := false } } },
      w.render w.machine.view)
  else (w, [])

/-! ### Passes -/

/-- A window after a pass, and the orders of the pass. -/
structure Pass where
  window : Window
  orders : List Order

/-- A window at which a pass broke off, and why. -/
structure Broken where
  window : Window
  failure : Failure

/-- The part of a pass behind its events: a tick, the sound gate, the picture. -/
def work (w : Window) : Except Broken Pass :=
  let stint := w.runner.tick
  let ticked := { w with runner := stint.runner }
  match stint.broken with
  | some e => .error ⟨ticked, .notAByte e⟩
  | none =>
      let (gated, sounds) := ticked.gate ticked.machine.sound
      let (drawn, pictures) := gated.drawIfDue
      .ok ⟨drawn, sounds ++ pictures⟩

/-- One pass; an error among the events leaves the rest of the pass undone. -/
def pass (tree : FileTree) (w : Window) (events : List Event) : Except Broken Pass :=
  match w.handleAll tree events with
  | (handled, some e) => .error ⟨handled, .file e⟩
  | (handled, none) => handled.work

/-- Passes in a row, the window after them, and the failure that ended them. -/
structure Session where
  passes : List Pass
  window : Window
  failure : Option Failure

/-- Passes until the session is to end, one for each batch of events, and a last one that closes the
window. -/
def session (tree : FileTree) (w : Window) (batches : List (List Event)) : Session :=
  if w.quit then ⟨[], w, none⟩
  else match batches with
    | [] =>
        match w.pass tree [.close] with
        | .error broken => ⟨[], broken.window, some broken.failure⟩
        | .ok last => ⟨[last], last.window, none⟩
    | events :: rest =>
        match w.pass tree events with
        | .error broken => ⟨[], broken.window, some broken.failure⟩
        | .ok done =>
            let later := session tree done.window rest
            { later with passes := done :: later.passes }

end Window

end Chip8
