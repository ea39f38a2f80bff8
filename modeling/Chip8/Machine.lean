import Chip8.Display
import Chip8.Fault
import Chip8.Font
import Chip8.Keypad
import Chip8.Noise
import Chip8.Opcode

/-!
The state of a machine and the primitive operations on it. Registers, counters, timers and return
addresses are integers, since a client may set them to any number and the program counter may run
past the end of memory; what the instructions keep of the ranges that memory and bytes allow is a
law of the runs, not of the type.

An index into a row counts from the front when it is not negative and from the back when it is, so
`-1` is the last place; every other index names no place.
-/

namespace Chip8

/-- The place that an index names in a row of `length`. -/
def place? (length : Nat) (index : Int) : Option (Fin length) :=
  let fromFront := if index < 0 then index + length else index
  if inside : 0 ≤ fromFront ∧ fromFront < length then
    some ⟨fromFront.toNat, by omega⟩
  else none

/-- The sixteen general registers. -/
abbrev Registers := Vector Int 16

/-- The two ways in which machines differ: whether a block transfer moves the index register, and
whether a malformed word stops the machine. -/
structure Mode where
  legacyStore : Bool := false
  strict : Bool := false
  deriving DecidableEq, Repr

/-- A machine. The stack holds the newest return address first. -/
structure Machine where
  mode : Mode
  memory : Memory
  registers : Registers
  index : Int
  pc : Int
  stack : List Int
  delay : Int
  sound : Int
  display : Display
  keypad : Keypad
  paused : Bool
  redraw : Bool
  skipped : Int
  noise : Noise

/-- A program that does not fit into memory. -/
structure TooLarge where
  size : Nat
  deriving DecidableEq, Repr

/-- A number that was offered as a byte and is none. -/
structure NotAByte where
  value : Int
  deriving DecidableEq, Repr

/-- What a screen and a speaker are shown of a machine. -/
structure View where
  display : Display
  delay : Int
  sound : Int
  paused : Bool
  deriving DecidableEq, Repr

namespace Machine

/-- Where programs start. -/
def origin : Int := 0x200

/-- The size of the longest program: the memory from the start of programs to the end. -/
def programLimit : Nat := 3584

/-- The most return addresses that the stack holds. -/
def stackLimit : Nat := 16

end Machine

namespace TooLarge

def message (e : TooLarge) : String :=
  "ROM is too large for memory (" ++ toString e.size ++ " bytes, max " ++
    toString Machine.programLimit ++ ")"

end TooLarge

namespace NotAByte

def message (e : NotAByte) : String :=
  "Memory value out of byte range: " ++ toString e.value

end NotAByte

namespace View

/-- The pixel whose place is `y` rows and `x` pixels on, counted from the end when negative. -/
def pixel? (view : View) (x y : Int) : Option Bool :=
  (place? 2048 (y * Display.width + x)).map view.display.get

end View

namespace Machine

def initialMemory : Memory :=
  Memory.blank.store Font.address Font.glyphs

def fresh (mode : Mode) (noise : Noise) : Machine where
  mode := mode
  memory := initialMemory
  registers := Vector.replicate 16 0
  index := 0
  pc := origin
  stack := []
  delay := 0
  sound := 0
  display := Display.dark
  keypad := Keypad.released
  paused := false
  redraw := false
  skipped := 0
  noise := noise

/-- Starts over: only the mode and the random source are kept, and the screen is due. -/
def reset (m : Machine) : Machine :=
  { fresh m.mode m.noise with redraw := true }

def loadFont (m : Machine) : Machine :=
  { m with memory := m.memory.store Font.address Font.glyphs }

/-- Copies a program to its place in memory; one that is too long is refused. -/
def load (m : Machine) (program : List Byte) : Except TooLarge Machine :=
  if program.length ≤ programLimit then
    .ok { m with memory := m.memory.store origin program }
  else .error ⟨program.length⟩

def ofProgram (mode : Mode) (noise : Noise) (program : List Byte) : Except TooLarge Machine :=
  (fresh mode noise).load program

def readMemory (m : Machine) (address : Int) : Byte :=
  m.memory.read address

/-- Writes a number to an address, if it is a byte. -/
def writeMemory (m : Machine) (address value : Int) : Except NotAByte Machine :=
  if 0 ≤ value ∧ value ≤ 255 then
    .ok { m with memory := m.memory.write address (BitVec.ofInt 8 value) }
  else .error ⟨value⟩

/-- The register that an index names. -/
def readRegister? (m : Machine) (index : Int) : Option Int :=
  (place? 16 index).map m.registers.get

/-- Puts any number into a register. -/
def putRegister (m : Machine) (x : Register) (value : Int) : Machine :=
  { m with registers := m.registers.set x value }

/-- Puts any number into the register that an index names. -/
def setRegister? (m : Machine) (index value : Int) : Option Machine :=
  (place? 16 index).map (m.putRegister · value)

/-- Writes a number modulo 256 to the register that an index names. -/
def writeRegister? (m : Machine) (index value : Int) : Option Machine :=
  m.setRegister? index (value % 256)

/-- The word at the program counter, whose two bytes are places in memory. -/
def fetch? (m : Machine) : Option Int := do
  let high ← place? 4096 m.pc
  let low ← place? 4096 (m.pc + 1)
  return m.memory[high].toNat * 256 + m.memory[low].toNat

/-- Puts a return address on the stack. A refusal names the instruction before the program
counter. -/
def push (m : Machine) (address : Int) : Except Fault Machine :=
  if m.stack.length < stackLimit then .ok { m with stack := address :: m.stack }
  else .error (.stackOverflow (m.pc - 2) m.stack.length)

/-- Takes the newest return address off the stack. A refusal names the instruction before the
program counter. -/
def pop (m : Machine) : Except Fault (Int × Machine) :=
  match m.stack with
  | address :: rest => .ok (address, { m with stack := rest })
  | [] => .error (.stackUnderflow (m.pc - 2))

/-- Counts both timers down by one, no further than zero. -/
def countDown (m : Machine) : Machine :=
  { m with delay := max 0 (m.delay - 1), sound := max 0 (m.sound - 1) }

def act (m : Machine) (action : Keypad.Action) : Machine :=
  { m with keypad := m.keypad.apply action }

def view (m : Machine) : View :=
  ⟨m.display, m.delay, m.sound, m.paused⟩

/-- One register and its value as text. -/
def registerEntry (r : Register) (value : Int) : String :=
  "V" ++ Numeral.hex 1 r.val ++ "=" ++ Numeral.hex 2 value

/-- The state in three lines: counters and timers, the registers, then the stack from its bottom
and the held keys. -/
def dump (m : Machine) : String :=
  "PC=" ++ Numeral.hex 3 m.pc ++ " I=" ++ Numeral.hex 4 m.index ++ " DT=" ++ toString m.delay ++
    " ST=" ++ toString m.sound ++ "\n" ++
    " ".intercalate ((List.finRange 16).map fun r => registerEntry r (m.registers.get r)) ++ "\n" ++
    "STACK: [" ++ " ".intercalate (m.stack.reverse.map (Numeral.hex 3)) ++ "] KEYS: " ++
    m.keypad.text

end Machine

end Chip8
