import Chip8.Machine
import Chip8.Toolkit

/-!
Pictures. A picture is a list of drawing orders that starts with a fill, so nothing of the picture
before it stays. Every lit pixel becomes one square of the window's scale, row by row from the left,
and at most one word is written over them. The orders are what is asked for; what is kept of the
rectangles is up to the toolkit.
-/

namespace Chip8

/-- A colour, as shares of 255. -/
structure Colour where
  red : Nat
  green : Nat
  blue : Nat
  deriving DecidableEq, Repr

inductive Overlay where
  | halted
  | paused
  deriving DecidableEq, Repr

/-- One drawing order. A text is drawn on its own first and then put to a place. -/
inductive Drawing where
  | fill (colour : Colour)
  | rectangle (colour : Colour) (x y width height : Nat)
  | text (word : String) (colour : Colour)
  | putText (x y : Nat)
  deriving DecidableEq, Repr

namespace Overlay

def word : Overlay → String
  | .halted => "HALTED"
  | .paused => "PAUSED"

def colour : Overlay → Colour
  | .halted | .paused => ⟨255, 0, 0⟩

end Overlay

namespace Drawing

def background : Colour := ⟨0, 0, 0⟩

def foreground : Colour := ⟨255, 255, 255⟩

/-- The columns and rows of the lit pixels, row by row from the left. -/
def litSpots (display : Display) : List (Nat × Nat) :=
  (List.range Display.height).flatMap fun y =>
    ((List.range Display.width).filter (display.lit · y)).map fun x => (x, y)

def square (scale : Nat) (spot : Nat × Nat) : Drawing :=
  .rectangle foreground (spot.1 * scale) (spot.2 * scale) scale scale

def area? : Drawing → Option Area
  | .rectangle _ x y width height => some ⟨x, y, width, height⟩
  | .fill _ | .text _ _ | .putText _ _ => none

def written : Option Overlay → List Drawing
  | none => []
  | some overlay => [.text overlay.word overlay.colour, .putText 10 10]

def picture (scale : Nat) (display : Display) (overlay : Option Overlay) : List Drawing :=
  .fill background :: (litSpots display).map (square scale) ++ written overlay

end Drawing

end Chip8
