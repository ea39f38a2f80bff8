import Chip8.Text

/-!
The keypad: sixteen keys, each held down or not. Keys are named by integer codes; a code outside
0 to 15 names no key, so pressing or releasing it does nothing and it is never held.
-/

namespace Chip8

/-- One of the sixteen keys. -/
abbrev Key := Fin 16

namespace Key

def ofCode? (code : Int) : Option Key :=
  if inside : 0 ≤ code ∧ code < 16 then some ⟨code.toNat, by omega⟩ else none

/-- A key as one hexadecimal digit. -/
def text (key : Key) : String :=
  Numeral.hex 1 key.val

end Key

/-- Which keys are held down. -/
structure Keypad where
  held : Vector Bool 16
  deriving DecidableEq, Repr

namespace Keypad

def released : Keypad := ⟨Vector.replicate 16 false⟩

def press (keypad : Keypad) (code : Int) : Keypad :=
  match Key.ofCode? code with
  | some key => ⟨keypad.held.set key true⟩
  | none => keypad

def release (keypad : Keypad) (code : Int) : Keypad :=
  match Key.ofCode? code with
  | some key => ⟨keypad.held.set key false⟩
  | none => keypad

/-- The keypad on which the keys with the given codes are held. -/
def ofCodes (codes : List Int) : Keypad :=
  codes.foldl press released

def isPressed (keypad : Keypad) (code : Int) : Bool :=
  match Key.ofCode? code with
  | some key => keypad.held[key]
  | none => false

/-- The held keys in ascending order. -/
def pressed (keypad : Keypad) : List Key :=
  (List.finRange 16).filter fun key => keypad.held[key]

def anyPressed (keypad : Keypad) : Bool :=
  !keypad.pressed.isEmpty

/-- The held keys between braces, in ascending order. -/
def text (keypad : Keypad) : String :=
  "Keypad(\x7b" ++ ",".intercalate (keypad.pressed.map Key.text) ++ "\x7d)"

inductive Action where
  | press (code : Int)
  | release (code : Int)
  | clear
  deriving DecidableEq, Repr

def apply (keypad : Keypad) : Action → Keypad
  | .press code => keypad.press code
  | .release code => keypad.release code
  | .clear => released

end Keypad

end Chip8
