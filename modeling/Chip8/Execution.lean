import Chip8.Notice

/-!
What instructions do. `Machine.execute` takes a machine whose program counter stands at an
instruction to the machine after it. The program counter moves before anything else, and an
instruction that is broken off leaves the machine as it had become by then: a call and a return can
refuse, and the instructions that store numbers stop at the first which is no byte. As long as the
registers hold bytes there is none. `Machine.step` fetches, classifies and executes one word, and
takes the program counter back when the word is refused. `Run` collects what a number of steps in a
row did.

A machine on its own can be moved in three ways: by a try at a step, by a count of the timers, and
by a client's action on the keypad. A try at a step has a verdict, the instruction that was carried
out or the cause that kept it from being carried out; the other moves answer nothing.
-/

namespace Chip8

/-- What keeps an instruction from being carried out: a fault, or a number to be stored that is no
byte. -/
inductive Cause where
  | fault (f : Fault)
  | notAByte (e : NotAByte)
  deriving DecidableEq, Repr

namespace Cause

def fault? : Cause → Option Fault
  | .fault f => some f
  | .notAByte _ => none

def notAByte? : Cause → Option NotAByte
  | .fault _ => none
  | .notAByte e => some e

end Cause

/-- An instruction that was broken off: why, and the machine as it was left. -/
structure Interruption where
  cause : Cause
  left : Machine

namespace Interruption

/-- A machine that refused an instruction. -/
def refusal (left : Machine) (f : Fault) : Interruption :=
  ⟨.fault f, left⟩

/-- A fault takes the program counter back to the instruction, a number that is no byte does not. -/
def takenBack (i : Interruption) (pc : Int) : Interruption :=
  match i.cause with
  | .fault _ => { i with left := { i.left with pc := pc } }
  | .notAByte _ => i

end Interruption

def flagNumber (flag : Bool) : Int :=
  if flag then 1 else 0

def lowByte (n : Int) : Byte :=
  BitVec.ofInt 8 n

namespace Machine

/-- The program counter moved behind the current instruction. -/
def next (m : Machine) : Machine :=
  { m with pc := m.pc + 2 }

/-- The program counter moved behind the current instruction, or behind one more. -/
def skipWhen (m : Machine) (condition : Bool) : Machine :=
  { m with pc := m.pc + if condition then 4 else 2 }

/-- One register replaced by a number modulo 256. -/
def setRegister (m : Machine) (x : Register) (value : Int) : Machine :=
  m.putRegister x (value % 256)

/-- One register replaced by a byte that is made of the low eight bits of two numbers. -/
def setCombined (m : Machine) (x : Register) (combine : Byte → Byte → Byte) (a b : Int) :
    Machine :=
  m.setRegister x (combine (lowByte a) (lowByte b)).toNat

/-- A result with its flag. The flag register is written last, so it holds the flag even when the
result was meant for it. -/
def setFlagged (m : Machine) (x : Register) (value : Int) (flag : Bool) : Machine :=
  (m.setRegister x value).setRegister 15 (flagNumber flag)

/-- The index register after the transfer of a block of registers. -/
def indexAfter (m : Machine) (x : Register) : Int :=
  if m.mode.legacyStore then (m.index + x.val + 1) % 65536 else m.index

/-- The registers with the first ones, up to `x`, read from memory. -/
def loadedRegisters (m : Machine) (x : Register) : Registers :=
  Vector.ofFn fun r =>
    if r ≤ x then (m.memory.read (m.index + r.val)).toNat else m.registers.get r

/-- The hundreds of a number, its tens and its ones. The last two are digits whatever the number
is. -/
def decimalDigits (value : Int) : List Int :=
  [value / 100, value / 10 % 10, value % 10]

/-- Writes numbers to consecutive addresses, up to the first that is no byte. -/
def storeNumbers (m : Machine) (address : Int) : List Int → Except Interruption Machine
  | [] => .ok m
  | value :: rest =>
      match m.writeMemory address value with
      | .ok stored => storeNumbers stored (address + 1) rest
      | .error e => .error ⟨.notAByte e, m⟩

/-- The effect of drawing a sprite from memory. Its corner is counted around the edges. -/
def drawSprite (m : Machine) (x y : Register) (rows : Fin 16) : Machine :=
  let sprite := m.memory.load m.index rows.val
  let column := (m.registers.get x % Display.width).toNat
  let row := (m.registers.get y % Display.height).toNat
  let (display, hit) := m.display.draw sprite column row
  { m.setRegister 15 (flagNumber hit) with display := display, redraw := true }

/-- The machine after the instruction at its program counter. -/
def execute (m : Machine) : Instruction → Except Interruption Machine
  | .clear => .ok { m.next with display := Display.dark, redraw := true }
  | .ret => do
      let (address, rest) ← m.next.pop.mapError (.refusal m.next)
      return { rest with pc := address }
  | .system _ => .ok m.next
  | .jump target => .ok { m with pc := target.val }
  | .call target => do
      let called ← (m.next.push m.next.pc).mapError (.refusal m.next)
      return { called with pc := target.val }
  | .skipIfByte x byte => .ok (m.skipWhen (m.registers.get x == byte.toNat))
  | .skipUnlessByte x byte => .ok (m.skipWhen (m.registers.get x != byte.toNat))
  | .skipIfSame x y => .ok (m.skipWhen (m.registers.get x == m.registers.get y))
  | .skipUnlessSame x y => .ok (m.skipWhen (m.registers.get x != m.registers.get y))
  | .loadByte x byte => .ok (m.next.setRegister x byte.toNat)
  | .addByte x byte => .ok (m.next.setRegister x (m.registers.get x + byte.toNat))
  | .copy x y => .ok (m.next.setRegister x (m.registers.get y))
  | .or x y => .ok (m.next.setCombined x (· ||| ·) (m.registers.get x) (m.registers.get y))
  | .and x y => .ok (m.next.setCombined x (· &&& ·) (m.registers.get x) (m.registers.get y))
  | .xor x y => .ok (m.next.setCombined x (· ^^^ ·) (m.registers.get x) (m.registers.get y))
  | .add x y =>
      let a := m.registers.get x
      let b := m.registers.get y
      .ok (m.next.setFlagged x (a + b) (255 < a + b))
  | .subtract x y =>
      let a := m.registers.get x
      let b := m.registers.get y
      .ok (m.next.setFlagged x (a - b) (b ≤ a))
  | .subtractFrom x y =>
      let a := m.registers.get x
      let b := m.registers.get y
      .ok (m.next.setFlagged x (b - a) (a ≤ b))
  | .shiftRight x _ =>
      let a := m.registers.get x
      .ok (m.next.setFlagged x (a / 2) (a % 2 == 1))
  | .shiftLeft x _ =>
      let a := m.registers.get x
      .ok (m.next.setFlagged x (2 * a) (a / 128 % 2 == 1))
  | .loadIndex target => .ok { m.next with index := target.val }
  | .jumpIndexed target => .ok { m with pc := target.val + m.registers.get 0 }
  | .random x mask =>
      let (byte, noise) := m.noise.next
      .ok { m.next.setRegister x (byte &&& mask).toNat with noise := noise }
  | .draw x y rows => .ok (m.drawSprite x y rows).next
  | .skipIfKey x => .ok (m.skipWhen (m.keypad.isPressed (m.registers.get x)))
  | .skipUnlessKey x => .ok (m.skipWhen (!m.keypad.isPressed (m.registers.get x)))
  | .readDelay x => .ok (m.next.setRegister x m.delay)
  | .awaitKey x =>
      match m.keypad.pressed with
      | [] => .ok m
      | key :: _ => .ok (m.next.setRegister x key.val)
  | .setDelay x => .ok { m.next with delay := m.registers.get x }
  | .setSound x => .ok { m.next with sound := m.registers.get x }
  | .addIndex x => .ok { m.next with index := (m.index + m.registers.get x) % 65536 }
  | .loadGlyph x => .ok { m.next with index := Font.glyph (m.registers.get x) }
  | .storeDecimal x => m.next.storeNumbers m.index (decimalDigits (m.registers.get x))
  | .storeRegisters x => do
      let stored ← m.next.storeNumbers m.index (m.registers.toList.take (x.val + 1))
      return { stored with index := m.indexAfter x }
  | .loadRegisters x =>
      .ok { m.next with registers := m.loadedRegisters x, index := m.indexAfter x }
  | .unknown _ => .ok m.next

def word (m : Machine) : Int :=
  m.memory.word m.pc

/-- The program counter stands at a whole word of memory. -/
def AtWord (m : Machine) : Prop :=
  0 ≤ m.pc ∧ m.pc < 4095

instance (m : Machine) : Decidable m.AtWord :=
  inferInstanceAs (Decidable (_ ∧ _))

/-- What carrying out an instruction gives notice of. -/
def remarks : Instruction → List Notice
  | .unknown word => [.unknownIgnored word]
  | _ => []

/-- Tries one step while notices from a level on are heard. A machine whose program counter cannot
hold a whole word has overrun memory. A malformed word is a fault of a strict machine; any other
machine counts it and goes on. An instruction is traced only if somebody hears it. -/
def stepAt (level : Level) (m : Machine) :
    Reported (Except Interruption (Instruction × Machine)) :=
  if m.AtWord then
    match Instruction.identify m.word m.pc with
    | .ok instruction =>
        let trace := if level.hears .debug then [.traced m.pc instruction] else []
        ⟨((m.execute instruction).map (instruction, ·)).mapError (·.takenBack m.pc),
          trace ++ remarks instruction⟩
    | .error fault =>
        let skipping := { m.next with skipped := m.skipped + 1 }
        if m.mode.strict then ⟨.error (.refusal m fault), []⟩
        else ⟨.ok (.unknown m.word, skipping), [.malformedSkipped fault]⟩
  else ⟨.error (.refusal m (.overrun m.pc)), []⟩

/-- A try at a step that is heard in full. What is not wanted of its notices can be left out when
they are printed. -/
def step (m : Machine) : Reported (Except Interruption (Instruction × Machine)) :=
  m.stepAt .debug

/-- The machine as one try at a step leaves it. -/
def stepped (m : Machine) : Machine :=
  match m.step.value with
  | .ok (_, after) => after
  | .error i => i.left

end Machine

/-- A stretch of steps: the machine now, the steps done, the last instruction, the fault that ended
the stretch or the number that broke it off, and the notices with the newest first. -/
structure Run where
  machine : Machine
  done : Nat := 0
  last : Option Instruction := none
  fault : Option Fault := none
  broken : Option NotAByte := none
  notices : List Notice := []

namespace Run

def ended (run : Run) : Bool :=
  run.fault.isSome || run.broken.isSome

/-- What becomes of a run with a try at a step. -/
def take (run : Run) (attempt : Reported (Except Interruption (Instruction × Machine))) : Run :=
  let run := { run with notices := attempt.notices.reverse ++ run.notices }
  match attempt.value with
  | .ok (instruction, machine) =>
      { run with machine := machine, done := run.done + 1, last := some instruction }
  | .error i =>
      { run with machine := i.left, fault := i.cause.fault?, broken := i.cause.notAByte? }

/-- One more step, unless the run has ended. -/
def step (run : Run) : Run :=
  if run.ended then run else run.take run.machine.step

def steps : Nat → Run → Run
  | 0, run => run
  | count + 1, run => if run.ended then run else steps count run.step

end Run

namespace Machine

/-- At most `count` steps, ending with the first that fails. -/
def run (m : Machine) (count : Nat) : Run :=
  Run.steps count { machine := m }

end Machine

/-! ### Moves -/

/-- One move on a machine. -/
inductive Move where
  | step
  | countDown
  | act (action : Keypad.Action)
  deriving DecidableEq, Repr

/-- What a try at a step comes to: an instruction, or the cause of a failure. -/
abbrev Verdict := Except Cause Instruction

namespace Machine

def verdict (m : Machine) : Verdict :=
  match m.step.value with
  | .ok (i, _) => .ok i
  | .error e => .error e.cause

/-- The machine after a move. A step that fails leaves the machine as it was by then. -/
def moved (m : Machine) : Move → Machine
  | .step => m.stepped
  | .countDown => m.countDown
  | .act action => m.act action

def answer (m : Machine) : Move → Option Verdict
  | .step => some m.verdict
  | .countDown | .act _ => none

def movedAll (m : Machine) (moves : List Move) : Machine :=
  moves.foldl moved m

/-- What moves in order answer, one after the other. -/
def answers (m : Machine) : List Move → List (Option Verdict)
  | [] => []
  | move :: rest => m.answer move :: (m.moved move).answers rest

end Machine

end Chip8
