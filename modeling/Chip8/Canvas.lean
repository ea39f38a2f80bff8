import Chip8.Window

/-!
What a screen shows. A canvas gives every point of the screen its colour, and keeps the word over
the picture apart from the points that its letters cover. It follows drawing orders one after the
other, so after any orders it shows what they left: a fill paints over all points and takes the word
away, a rectangle paints over the points in it, and a text stays aside until it is put to a place.
A canvas records what is asked for, and paints every rectangle as the order gives it.
-/

namespace Chip8

/-- The colours of the points of a screen, a text that was not put anywhere yet, and the word over
the picture. -/
structure Canvas where
  colour : Nat → Nat → Colour
  aside : Option String := none
  word : Option String := none

namespace Drawing

def pixelColour (lit : Bool) : Colour :=
  if lit then foreground else background

end Drawing

namespace Order

def isDrawing : Order → Bool
  | .draw _ => true
  | .requestSound | .giveSamples _ | .setVolume | .play _ | .stop => false

end Order

namespace Window

def Pass.draws (p : Pass) : Bool :=
  p.orders.any Order.isDrawing

/-- The last of some passes that drew, if any did. -/
def lastDrawn? (passes : List Pass) : Option Pass :=
  passes.reverse.find? (·.draws)

end Window

namespace Runner

/-- The word that belongs over the picture of a runner's machine. -/
def dueWord (r : Runner) : Option String :=
  if r.fault.isSome then some "HALTED" else if r.machine.paused then some "PAUSED" else none

end Runner

namespace Canvas

/-- A screen on which nothing was drawn. -/
def blank : Canvas where
  colour _ _ := Drawing.background

def draw (canvas : Canvas) : Drawing → Canvas
  | .fill colour => { canvas with colour := fun _ _ => colour, word := none }
  | .rectangle colour left top width height =>
      { canvas with colour := fun x y =>
          if left ≤ x ∧ x < left + width ∧ top ≤ y ∧ y < top + height then colour
          else canvas.colour x y }
  | .text word _ => { canvas with aside := some word }
  | .putText _ _ => { canvas with word := canvas.aside }

def drawAll (canvas : Canvas) (drawings : List Drawing) : Canvas :=
  drawings.foldl draw canvas

/-- The screen after an order; orders to the speaker leave it. -/
def follow (canvas : Canvas) : Order → Canvas
  | .draw drawing => canvas.draw drawing
  | _ => canvas

def followAll (canvas : Canvas) (orders : List Order) : Canvas :=
  orders.foldl follow canvas

/-- The screen after the orders that opened a window and those of its passes. -/
def after (opening : List Order) (passes : List Window.Pass) : Canvas :=
  blank.followAll (opening ++ passes.flatMap (·.orders))

/-- The screen shows a display at a scale: every point has the colour of the pixel it lies in. -/
def Shows (canvas : Canvas) (scale : Nat) (display : Display) : Prop :=
  ∀ x y, x < Display.width * scale → y < Display.height * scale →
    canvas.colour x y = Drawing.pixelColour (display.lit (x / scale) (y / scale))

end Canvas

end Chip8
