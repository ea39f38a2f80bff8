/-!
Numbers that are given exactly or as a float. A whole number becomes the float nearest to it unless
it lies beyond the largest float, and a float is cut to its whole part without an error unless it is
infinite or no number at all.
-/

namespace Chip8

/-- A number that was given exactly or as a float. -/
inductive Quantity where
  | whole (n : Int)
  | float (x : Float)

/-- Why a float has no whole part. -/
inductive NoWholePart where
  | infinite
  | notANumber
  deriving DecidableEq, Repr

namespace NoWholePart

def message : NoWholePart → String
  | .infinite => "an infinite number has no whole part"
  | .notANumber => "what is no number has no whole part"

end NoWholePart

namespace Quantity

/-- The least whole number that no float is near enough to: the middle between the largest float and
the power of two behind it. -/
def floatLimit : Nat := (1 <<< 1024) - (1 <<< 970)

/-- Is a float near enough to a quantity? -/
def fitsFloat : Quantity → Bool
  | .whole n => n.natAbs < floatLimit
  | .float _ => true

/-- The float nearest to a quantity, which is infinite if none is near enough. -/
def toFloat : Quantity → Float
  | .whole n => Float.ofInt n
  | .float x => x

/-- The whole part of a float, read off its sign, exponent and fraction. -/
def wholePart (x : Float) : Except NoWholePart Int :=
  let bits := x.toBits.toNat
  let exponent := (bits >>> 52) % 2048
  let fraction := bits % 0x10000000000000
  let significand := if exponent = 0 then fraction else 0x10000000000000 + fraction
  let size : Nat :=
    if exponent < 1075 then significand >>> (1075 - exponent)
    else significand <<< (exponent - 1075)
  if exponent = 2047 then .error (if fraction = 0 then .infinite else .notANumber)
  else if bits < 0x8000000000000000 then .ok size
  else .ok (-size)

/-- A quantity without its fraction. -/
def truncated : Quantity → Except NoWholePart Int
  | .whole n => .ok n
  | .float x => wholePart x

end Quantity

end Chip8
