import Chip8.Text

/-!
The ways in which a machine comes to a stop: the program counter leaves memory, a subroutine call
or return finds no room or no address, or a strict machine meets a malformed word.
-/

namespace Chip8

/-- Why a machine cannot do its next step. -/
inductive Fault where
  | overrun (pc : Int)
  | stackOverflow (address : Int) (depth : Nat)
  | stackUnderflow (address : Int)
  | malformed (word : Int) (address : Int)
  deriving DecidableEq, Repr

namespace Fault

/-- What is wrong with a malformed word: only the comparison of two registers has a digit that
must be zero. -/
def malformedReason : String := "5XY0 trailing nibble must be 0"

def message : Fault → String
  | .overrun pc => "Program counter overran memory at " ++ Numeral.hex 4 pc
  | .stackOverflow address depth =>
      "Stack overflow on CALL at PC " ++ Numeral.hex 3 address ++
        " (depth " ++ toString depth ++ ")"
  | .stackUnderflow address => "Stack underflow on RET at PC " ++ Numeral.hex 3 address
  | .malformed word address =>
      "Malformed opcode " ++ Numeral.hex 4 word ++ " at PC " ++ Numeral.hex 3 address ++ ": " ++
        malformedReason

end Fault

end Chip8
