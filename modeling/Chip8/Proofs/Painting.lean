import Chip8.Canvas

/-!
Pictures on a screen. Whatever a screen showed before, a picture leaves it with the display and the
overlay that the picture was made of, and with nothing else (`Canvas.drawAll_picture_shows`,
`Canvas.drawAll_picture_word`).
-/

namespace Chip8

namespace Drawing

/-- The lit spots of a display are the places of its lit pixels. -/
theorem mem_litSpots_iff {display : Display} {x y : Nat} :
    (x, y) ∈ litSpots display ↔
      x < Display.width ∧ y < Display.height ∧ display.lit x y = true := by
  simp only [litSpots, List.mem_flatMap, List.mem_range, List.mem_map, List.mem_filter,
    Prod.mk.injEq]
  constructor
  · rintro ⟨row, below, column, ⟨within, lit⟩, rfl, rfl⟩
    exact ⟨within, below, lit⟩
  · rintro ⟨within, below, lit⟩
    exact ⟨y, below, x, ⟨within, lit⟩, rfl, rfl⟩

/-- A point lies in the square of one spot only. -/
theorem in_square_iff {scale x y : Nat} (positive : 0 < scale) (spot : Nat × Nat) :
    (spot.1 * scale ≤ x ∧ x < spot.1 * scale + scale ∧ spot.2 * scale ≤ y ∧
      y < spot.2 * scale + scale) ↔ (x / scale, y / scale) = spot := by
  rw [Prod.ext_iff, Nat.div_eq_iff positive, Nat.div_eq_iff positive]
  omega

end Drawing

namespace Canvas

variable {canvas : Canvas} {scale : Nat}

theorem drawAll_append (canvas : Canvas) (a b : List Drawing) :
    canvas.drawAll (a ++ b) = (canvas.drawAll a).drawAll b :=
  List.foldl_append

theorem followAll_append (canvas : Canvas) (a b : List Order) :
    canvas.followAll (a ++ b) = (canvas.followAll a).followAll b :=
  List.foldl_append

theorem followAll_draw (canvas : Canvas) (drawings : List Drawing) :
    canvas.followAll (drawings.map .draw) = canvas.drawAll drawings := by
  rw [followAll, List.foldl_map]
  rfl

/-- Orders to the speaker leave the screen. -/
theorem followAll_of_silent {orders : List Order} (silent : ∀ o ∈ orders, o.isDrawing = false) :
    canvas.followAll orders = canvas := by
  induction orders with
  | nil => rfl
  | cons order rest ih =>
      have first := silent order List.mem_cons_self
      have same : canvas.follow order = canvas := by
        cases order with
        | draw drawing => cases first
        | _ => rfl
      rw [followAll, List.foldl_cons, same]
      exact ih fun o mem => silent o (List.mem_cons_of_mem _ mem)

/-- Squares paint over the points of their spots and over no others. -/
theorem drawAll_squares_colour (positive : 0 < scale) (canvas : Canvas) (spots : List (Nat × Nat))
    (x y : Nat) :
    (canvas.drawAll (spots.map (Drawing.square scale))).colour x y =
      if (x / scale, y / scale) ∈ spots then Drawing.foreground else canvas.colour x y := by
  induction spots generalizing canvas with
  | nil => rfl
  | cons spot rest ih =>
      have painted : (canvas.draw (Drawing.square scale spot)).colour x y =
          if (x / scale, y / scale) = spot then Drawing.foreground else canvas.colour x y := by
        simp only [Drawing.square, draw, Drawing.in_square_iff positive spot]
      rw [List.map_cons, drawAll, List.foldl_cons, ← drawAll, ih, painted]
      by_cases later : (x / scale, y / scale) ∈ rest
      · simp [later]
      · simp [later]

theorem drawAll_squares_word (canvas : Canvas) (spots : List (Nat × Nat)) :
    (canvas.drawAll (spots.map (Drawing.square scale))).word = canvas.word := by
  induction spots generalizing canvas with
  | nil => rfl
  | cons spot rest ih => exact ih _

/-- The words of an overlay do not paint points. -/
theorem drawAll_written_colour (canvas : Canvas) (overlay : Option Overlay) :
    (canvas.drawAll (Drawing.written overlay)).colour = canvas.colour := by
  cases overlay <;> rfl

theorem drawAll_written_word (canvas : Canvas) (overlay : Option Overlay)
    (clear : canvas.word = none) :
    (canvas.drawAll (Drawing.written overlay)).word = overlay.map Overlay.word := by
  cases overlay with
  | none => exact clear
  | some overlay => rfl

/-- A picture leaves the screen with the display it was made of. -/
theorem drawAll_picture_shows (positive : 0 < scale) (canvas : Canvas) (display : Display)
    (overlay : Option Overlay) :
    (canvas.drawAll (Drawing.picture scale display overlay)).Shows scale display := by
  intro x y within below
  have inside : x / scale < Display.width := Nat.div_lt_of_lt_mul (by rwa [Nat.mul_comm])
  have above : y / scale < Display.height := Nat.div_lt_of_lt_mul (by rwa [Nat.mul_comm])
  rw [Drawing.picture, List.cons_append, drawAll, List.foldl_cons, ← drawAll, drawAll_append,
    drawAll_written_colour, drawAll_squares_colour positive]
  simp only [Drawing.mem_litSpots_iff, inside, above, true_and]
  rfl

/-- A picture leaves the screen with the word it was made with. -/
theorem drawAll_picture_word (canvas : Canvas) (display : Display) (overlay : Option Overlay) :
    (canvas.drawAll (Drawing.picture scale display overlay)).word = overlay.map Overlay.word := by
  rw [Drawing.picture, List.cons_append, drawAll, List.foldl_cons, ← drawAll, drawAll_append]
  refine drawAll_written_word _ overlay ?_
  rw [drawAll_squares_word]
  rfl

end Canvas

end Chip8
