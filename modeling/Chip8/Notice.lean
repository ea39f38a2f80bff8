import Chip8.Machine
import Chip8.Mnemonic

/-!
What a run has to say. Every report is a value with a level and a text; functions that report
return their notices next to their result, oldest first, and never look at them again.
-/

namespace Chip8

/-- How much a notice matters, from least to most. -/
inductive Level where
  | debug
  | info
  | warning
  | error
  deriving DecidableEq, Repr

namespace Level

def rank : Level → Nat
  | .debug => 0
  | .info => 1
  | .warning => 2
  | .error => 3

/-- Are notices of a level heard, if those from `least` on are? -/
def hears (least level : Level) : Bool :=
  least.rank ≤ level.rank

def text : Level → String
  | .debug => "DEBUG"
  | .info => "INFO"
  | .warning => "WARNING"
  | .error => "ERROR"

end Level

inductive Notice where
  | keyPressed (key : Key)
  | keyReleased (key : Key)
  | traced (pc : Int) (instruction : Instruction)
  | unknownIgnored (word : Int)
  | malformedSkipped (fault : Fault)
  | programLoaded (size : Nat)
  | programSwitched (size : Nat)
  | paused
  | resumed
  | halted (fault : Fault) (dump : String)
  | fileRead (size : Nat) (path : String)
  | soundUnavailable
  | programKept (reason : String)
  deriving DecidableEq, Repr

namespace Notice

def level : Notice → Level
  | .keyPressed _ | .keyReleased _ | .traced _ _ | .unknownIgnored _ | .fileRead _ _ => .debug
  | .programLoaded _ | .programSwitched _ | .paused | .resumed => .info
  | .malformedSkipped _ | .soundUnavailable | .programKept _ => .warning
  | .halted _ _ => .error

def message : Notice → String
  | .keyPressed key => "Key " ++ key.text ++ " pressed"
  | .keyReleased key => "Key " ++ key.text ++ " released"
  | .traced pc instruction =>
      "mem_addr: 0x" ++ Numeral.hexLower 4 pc ++ "    instruction: " ++ instruction.text
  | .unknownIgnored word => "Ignoring unknown opcode " ++ Numeral.hex 4 word
  | .malformedSkipped fault => fault.message ++ ", treating as no-op"
  | .programLoaded size => "Loaded " ++ toString size ++ " byte ROM at 0x200"
  | .programSwitched size => "Switched to new ROM (" ++ toString size ++ " bytes)"
  | .paused => "Paused"
  | .resumed => "Resumed"
  | .halted fault dump => "Machine halted: " ++ fault.message ++ "\n" ++ dump
  | .fileRead size path => "Read " ++ toString size ++ " bytes from " ++ path
  | .soundUnavailable => "Audio disabled: no device"
  | .programKept reason => "Keeping current ROM: " ++ reason

def atLeast (least : Level) (notices : List Notice) : List Notice :=
  notices.filter fun notice => least.hears notice.level

end Notice

/-- A result and what was noticed on the way to it, oldest first. -/
structure Reported (α : Type) where
  value : α
  notices : List Notice

namespace Keypad.Action

/-- What a client's action on a keypad gives notice of: keys that exist, held before or not. -/
def notices : Action → List Notice
  | .press code => ((Key.ofCode? code).map Notice.keyPressed).toList
  | .release code => ((Key.ofCode? code).map Notice.keyReleased).toList
  | .clear => []

end Keypad.Action

end Chip8
