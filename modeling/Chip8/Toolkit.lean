import Chip8.Display
import Chip8.Quantity

/-!
What a window takes from libraries: a surface for its picture, the rectangles on it, and the samples
of its beep. A toolkit is a parameter, and what it grants, keeps and refuses is its own affair. Here
is only what it is asked for, and where a result relies on an answer it names this as a law.

A frame asks for a surface that holds every pixel of the display as a square, and puts a caption
over it. The beep is a square wave: it is high in every second half of a period, which is where the
whole part of the number of half periods before a sample is odd. The number of its samples, its
extent, is counted without the toolkit.
-/

namespace Chip8

/-- A refusal of a library: its kind and its text. -/
structure Toolkit.Error where
  kind : String
  message : String
  deriving DecidableEq, Repr

structure Area where
  left : Int
  top : Int
  width : Int
  height : Int
  deriving DecidableEq, Repr

/-- A toolkit: the sides of the surface that it gives for the sides it is asked for; what it keeps
of a rectangle that it is asked to draw; for an extent, a pitch and a rate, whether the wave is high
at each of its samples; and the samples of a wave with a height. -/
structure Toolkit where
  surface : Int → Int → Except Toolkit.Error (Nat × Nat)
  area : Area → Area
  phases : Int → Quantity → Quantity → Except Toolkit.Error (List Bool)
  samples : List Bool → Quantity → Except Toolkit.Error (List Int)

/-- A rectangle lies in a surface of a width and a height. -/
def Area.Within (area : Area) (width height : Nat) : Prop :=
  0 ≤ area.left ∧ 0 ≤ area.width ∧ area.left + area.width ≤ width ∧
    0 ≤ area.top ∧ 0 ≤ area.height ∧ area.top + area.height ≤ height

namespace Toolkit

/-- The law of rectangles: where a surface is as large as it was asked for, the rectangles that lie
in it are kept as they are. What is kept of others is left open. -/
structure Sound (toolkit : Toolkit) : Prop where
  keeps : ∀ {width height : Nat}, toolkit.surface width height = .ok (width, height) →
    ∀ area : Area, area.Within width height → toolkit.area area = area

/-- A toolkit that gives and keeps whatever it is asked for, and knows only the empty wave. -/
def obliging : Toolkit where
  surface width height := .ok (width.toNat, height.toNat)
  area := id
  phases _ _ _ := .ok []
  samples _ _ := .ok []

theorem obliging_sound : obliging.Sound :=
  ⟨fun _ _ _ => rfl⟩

end Toolkit

/-! ### Frames -/

/-- The frame of a window: the side of a pixel, the surface's width and height, the caption. -/
structure Frame where
  scale : Nat
  scale_pos : 0 < scale
  width : Nat
  height : Nat
  caption : String
  deriving DecidableEq, Repr

/-- Why no frame can be made: there is no surface, or the caption cannot be handed on. -/
inductive FrameError where
  | surface (e : Toolkit.Error)
  | nullInCaption
  deriving DecidableEq, Repr

namespace FrameError

def message : FrameError → String
  | .surface e => e.message
  | .nullInCaption => "embedded null character"

end FrameError

/-- The frame for a display at a scale, which is at least 1, under a caption. -/
def Frame.made (toolkit : Toolkit) (scale : Int) (caption : String) : Except FrameError Frame := do
  let side := max 1 scale.toNat
  let sides ← (toolkit.surface (Display.width * side) (Display.height * side)).mapError .surface
  if caption.toList.contains '\x00' then throw .nullInCaption
  return {
    scale := side
    scale_pos := by omega
    width := sides.1
    height := sides.2
    caption := caption }

/-! ### Tones -/

/-- A square wave: its pitch in periods a second, samples in a second, seconds and height. -/
structure Tone where
  pitch : Quantity
  rate : Quantity := .whole 44100
  duration : Quantity := .float 0.1
  volume : Quantity := .float 1.0

/-- Why a wave cannot be made: its extent is no number of samples, or the toolkit refuses it. -/
inductive ToneError where
  | numberTooLarge
  | noExtent (e : NoWholePart)
  | library (e : Toolkit.Error)
  deriving DecidableEq, Repr

namespace ToneError

def message : ToneError → String
  | .numberTooLarge => "a number of the tone is beyond the largest float"
  | .noExtent e => "the tone has no length: " ++ e.message
  | .library e => e.message

end ToneError

namespace Tone

/-- The product of samples in a second and seconds, without its fraction. It is exact if both
are. -/
def extent (t : Tone) : Except ToneError Int :=
  match t.rate, t.duration with
  | .whole rate, .whole duration => .ok (rate * duration)
  | rate, duration =>
      if rate.fitsFloat && duration.fitsFloat then
        (Quantity.wholePart (rate.toFloat * duration.toFloat)).mapError .noExtent
      else .error .numberTooLarge

/-- The samples of a tone, of which the toolkit makes what is not the extent. -/
def samples (toolkit : Toolkit) (t : Tone) : Except ToneError (List Int) := do
  let extent ← t.extent
  let phases ← (toolkit.phases extent t.pitch t.rate).mapError .library
  (toolkit.samples phases t.volume).mapError .library

end Tone

end Chip8
