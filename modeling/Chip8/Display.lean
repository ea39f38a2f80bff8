import Chip8.Memory

/-!
The display: 64 by 32 pixels, stored row by row from the top left corner. A sprite is a list of
bytes, one for each row, whose highest bit is its leftmost pixel. Drawing flips every pixel that the
sprite covers with a one and wraps around at both edges; it reports whether a lit pixel went out.
-/

namespace Chip8

/-- The 2048 pixels, lit or dark, row by row. -/
abbrev Display := Vector Bool 2048

namespace Display

def width : Nat := 64

def height : Nat := 32

def dark : Display := Vector.replicate 2048 false

/-- The pixel in a column and a row, both counted around the edges. -/
def spot (x y : Nat) : Fin 2048 :=
  ⟨y % 32 * 64 + x % 64, by omega⟩

def lit (display : Display) (x y : Nat) : Bool :=
  display[spot x y]

def row (display : Display) (y : Nat) : List Bool :=
  (List.range width).map (display.lit · y)

def rows (display : Display) : List (List Bool) :=
  (List.range height).map display.row

/-- The pixels that a sprite covers with a one when its top left corner stands at `(x, y)`, row by
row from the left. -/
def covered (sprite : List Byte) (x y : Nat) : List (Fin 2048) :=
  sprite.zipIdx.flatMap fun (byte, down) =>
    ((List.range 8).filter byte.getMsbD).map fun right => spot (x + right) (y + down)

def flip (display : Display) (place : Fin 2048) : Display :=
  display.set place (!display[place])

/-- Turns pixels over one after the other, and tells whether any of them was lit by then. -/
def flipAll (display : Display) (places : List (Fin 2048)) : Display × Bool :=
  places.foldl (fun (shown, hit) place => (flip shown place, hit || shown[place])) (display, false)

/-- Draws a sprite with its top left corner at `(x, y)`. -/
def draw (display : Display) (sprite : List Byte) (x y : Nat) : Display × Bool :=
  flipAll display (covered sprite x y)

end Display

end Chip8
