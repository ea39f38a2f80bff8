import Mathlib.Data.List.FinRange
import Chip8.Proofs.Painting

/-!
The squares of a picture. A window asks for one square for each lit pixel, in the order in which
pixels are stored (`Window.render_eq`). At every scale the squares do not overlap, lie in a surface
that is as large as the display, and tell which display it is. What a toolkit keeps of them is its
own affair, but one that gave a surface of this size keeps them all (`Window.squares_tell_display`).
-/

namespace Chip8

/-! ### Places -/

/-- Going through a grid row by row is going through its cells as they are counted. -/
theorem cells_eq_count {columns : Nat} (positive : 0 < columns) (rows : Nat)
    (lit : Nat → Nat → Bool) :
    ((List.range rows).flatMap fun y =>
        ((List.range columns).filter (lit · y)).map fun x => (x, y)) =
      ((List.range (rows * columns)).filter fun i => lit (i % columns) (i / columns)).map
        fun i => (i % columns, i / columns) := by
  induction rows with
  | zero => simp
  | succ rows ih =>
      have cell : ∀ x ∈ List.range columns,
          (rows * columns + x) % columns = x ∧ (rows * columns + x) / columns = rows := by
        intro x mem
        have within := List.mem_range.mp mem
        rw [Nat.mul_comm rows, Nat.mul_add_mod, Nat.mul_add_div positive, Nat.mod_eq_of_lt within,
          Nat.div_eq_of_lt within]
        exact ⟨rfl, Nat.add_zero rows⟩
      have kept : (List.range columns).filter
            ((fun i => lit (i % columns) (i / columns)) ∘ (rows * columns + ·)) =
          (List.range columns).filter (lit · rows) := by
        refine List.filter_congr fun x mem => ?_
        rw [Function.comp_apply, (cell x mem).1, (cell x mem).2]
      rw [List.range_succ, List.flatMap_append, ih, List.flatMap_singleton, Nat.succ_mul,
        List.range_add, List.filter_append, List.map_append, List.filter_map, List.map_map, kept]
      congr 1
      refine List.map_congr_left fun x mem => ?_
      obtain ⟨column, row⟩ := cell x (List.mem_of_mem_filter mem)
      rw [Function.comp_apply, column, row]

/-- Places below a bound are numbers below it. -/
theorem map_val_filter_finRange (n : Nat) (p : Nat → Bool) :
    ((List.finRange n).filter fun place => p place.val).map Fin.val =
      (List.range n).filter p := by
  rw [← List.map_coe_finRange_eq_range, List.filter_map]
  rfl

namespace Display

variable {display : Display} {place : Fin 2048}

/-- The places of the lit pixels, in the order in which pixels are stored. -/
def litPlaces (display : Display) : List (Fin 2048) :=
  (List.finRange 2048).filter (display.get ·)

theorem mem_litPlaces_iff : place ∈ display.litPlaces ↔ display.get place = true := by
  rw [litPlaces, List.mem_filter, and_iff_right (List.mem_finRange place)]

/-- A display is known by its lit pixels. -/
theorem eq_of_litPlaces {other : Display} (same : display.litPlaces = other.litPlaces) :
    display = other := by
  refine Vector.ext fun i inside => ?_
  have lit : display.get ⟨i, inside⟩ = true ↔ other.get ⟨i, inside⟩ = true := by
    rw [← mem_litPlaces_iff, ← mem_litPlaces_iff, same]
  exact Bool.eq_iff_iff.mpr lit

theorem lit_place (display : Display) (place : Fin 2048) :
    display.lit (place.val % 64) (place.val / 64) = display.get place := by
  have same : spot (place.val % 64) (place.val / 64) = place := by
    apply Fin.ext
    simp only [spot]
    omega
  exact congrArg display.get same

def single (place : Fin 2048) : Display :=
  Vector.ofFn (· == place)

theorem litPlaces_single (place : Fin 2048) : (single place).litPlaces = [place] := by
  have lit : ∀ other : Fin 2048, (single place).get other = (other == place) :=
    fun other => Vector.getElem_ofFn other.isLt
  have once : (List.finRange 2048).count place = 1 :=
    List.count_eq_one_of_mem (List.nodup_finRange 2048) (List.mem_finRange place)
  simp only [litPlaces, lit]
  rw [List.filter_beq, once, List.replicate_one]

end Display

/-- The lit spots, row by row, are the lit pixels as they are stored. -/
theorem Drawing.litSpots_eq (display : Display) :
    litSpots display = display.litPlaces.map fun place => (place.val % 64, place.val / 64) := by
  have places : display.litPlaces =
      (List.finRange 2048).filter fun place => display.lit (place.val % 64) (place.val / 64) :=
    List.filter_congr fun place _ => (display.lit_place place).symm
  have counted := map_val_filter_finRange 2048 fun i => display.lit (i % 64) (i / 64)
  have cells : litSpots display = _ := cells_eq_count (by decide : 0 < 64) 32 display.lit
  rw [cells, ← counted, places, List.map_map]
  rfl

/-! ### Squares -/

namespace Area

variable {scale : Nat} {place other : Fin 2048}

/-- The square of a place at a scale. -/
def square (scale : Nat) (place : Fin 2048) : Area :=
  ⟨(place.val % 64 * scale : Nat), (place.val / 64 * scale : Nat), scale, scale⟩

/-- A point lies in a rectangle. -/
def Has (area : Area) (x y : Int) : Prop :=
  area.left ≤ x ∧ x < area.left + area.width ∧ area.top ≤ y ∧ y < area.top + area.height

/-- No point lies in both of two rectangles. -/
def Apart (area other : Area) : Prop :=
  ∀ x y, ¬ (area.Has x y ∧ other.Has x y)

/-- Squares of different places do not overlap. -/
theorem apart_of_ne (different : place ≠ other) :
    (square scale place).Apart (square scale other) := by
  -- A column in which two squares have a point is the column of both, and so is a row.
  have same : ∀ {a b : Nat} {point : Int}, ((a * scale : Nat) : Int) ≤ point →
      point < (b * scale : Nat) + scale → a ≤ b := by
    intro a b point from_ upTo
    have less : a * scale < (b + 1) * scale := by
      rw [Nat.succ_mul]
      omega
    exact Nat.lt_succ_iff.mp (Nat.lt_of_mul_lt_mul_right less)
  rintro x y ⟨⟨left, right, top, bottom⟩, left', right', top', bottom'⟩
  have column := Nat.le_antisymm (same left right') (same left' right)
  have row := Nat.le_antisymm (same top bottom') (same top' bottom)
  refine different (Fin.ext ?_)
  omega

/-- Squares lie in a surface that is as large as the display. -/
theorem square_within (scale : Nat) (place : Fin 2048) :
    (square scale place).Within (64 * scale) (32 * scale) := by
  have column := Nat.mul_le_mul_right scale (show place.val % 64 + 1 ≤ 64 by omega)
  have row := Nat.mul_le_mul_right scale (show place.val / 64 + 1 ≤ 32 by omega)
  rw [Nat.add_mul, Nat.one_mul] at column row
  refine ⟨Int.natCast_nonneg _, Int.natCast_nonneg _, ?_, Int.natCast_nonneg _,
    Int.natCast_nonneg _, ?_⟩
  · simp only [square]
    omega
  · simp only [square]
    omega

/-- A square with a side tells its place. -/
theorem square_injective (positive : 0 < scale) : Function.Injective (square scale) := by
  intro place other same
  by_contra different
  -- A square with a side has a point, and two squares of different places have none in common.
  have apart : (square scale place).Apart (square scale other) := apart_of_ne different
  refine apart (square scale place).left (square scale place).top ⟨?_, ?_⟩
  · simp only [Has, square]
    omega
  · rw [← same]
    simp only [Has, square]
    omega

end Area

/-! ### Frames -/

/-- A frame has the surface that the toolkit gave for the display at the frame's scale. -/
theorem Frame.surface_of_made {toolkit : Toolkit} {frame : Frame} {side : Int} {caption : String}
    (opened : made toolkit side caption = .ok frame) :
    toolkit.surface (64 * frame.scale : Nat) (32 * frame.scale : Nat) =
      .ok (frame.width, frame.height) := by
  simp only [made] at opened
  cases answer : toolkit.surface (Display.width * (max 1 side.toNat : Nat))
      (Display.height * (max 1 side.toNat : Nat)) with
  | error e =>
      rw [answer] at opened
      cases opened
  | ok sides =>
      simp only [answer, Except.mapError, bind, Except.bind] at opened
      split at opened
      · cases opened
      · cases opened
        simpa [Display.width, Display.height] using answer

/-! ### Pictures -/

def Order.area? : Order → Option Area
  | .draw drawing => drawing.area?
  | .requestSound | .giveSamples _ | .setVolume | .play _ | .stop => none

namespace Window

variable {w : Window} {view : View} {toolkit : Toolkit}

def askedAreas (orders : List Order) : List Area :=
  orders.filterMap Order.area?

/-- What a toolkit keeps of the rectangles that orders ask for. -/
def keptAreas (toolkit : Toolkit) (orders : List Order) : List Area :=
  (askedAreas orders).map toolkit.area

/-- The word that is due over what a screen is shown. -/
def wordOver (w : Window) (view : View) : Option String :=
  if w.runner.fault.isSome then some "HALTED" else if view.paused then some "PAUSED" else none

/-- A picture is a fill, then a square for each lit pixel in the order in which pixels are stored,
and then the word that is due. -/
theorem render_eq (w : Window) (view : View) :
    w.render view =
      .draw (.fill Drawing.background) ::
        (view.display.litPlaces.map fun place =>
          .draw (.rectangle Drawing.foreground (place.val % 64 * w.frame.scale)
            (place.val / 64 * w.frame.scale) w.frame.scale w.frame.scale)) ++
        (w.wordOver view).toList.flatMap fun word =>
          [.draw (.text word ⟨255, 0, 0⟩), .draw (.putText 10 10)] := by
  have words : (Drawing.written (w.overlay view)).map Order.draw =
      (w.wordOver view).toList.flatMap fun word =>
        [.draw (.text word ⟨255, 0, 0⟩), .draw (.putText 10 10)] := by
    unfold overlay wordOver Runner.running
    cases w.runner.fault with
    | some f => rfl
    | none => cases view.paused <;> rfl
  rw [render, Drawing.picture, List.map_append, words, List.map_cons, Drawing.litSpots_eq,
    List.map_map, List.map_map]
  rfl

theorem askedAreas_render (w : Window) (view : View) :
    askedAreas (w.render view) = view.display.litPlaces.map (Area.square w.frame.scale) := by
  have words : ((w.wordOver view).toList.flatMap fun word =>
      [.draw (.text word ⟨255, 0, 0⟩), .draw (.putText 10 10)]).filterMap Order.area? = [] := by
    cases w.wordOver view <;> rfl
  rw [render_eq, askedAreas, List.filterMap_append, words, List.append_nil,
    List.filterMap_cons_none rfl, List.filterMap_map]
  exact congrFun List.filterMap_eq_map view.display.litPlaces

theorem askedAreas_apart (w : Window) (view : View) :
    (askedAreas (w.render view)).Pairwise Area.Apart := by
  rw [askedAreas_render, List.pairwise_map]
  have distinct : view.display.litPlaces.Nodup := (List.nodup_finRange 2048).filter _
  exact distinct.imp Area.apart_of_ne

theorem askedAreas_within (w : Window) (view : View) :
    ∀ area ∈ askedAreas (w.render view),
      area.Within (64 * w.frame.scale) (32 * w.frame.scale) := by
  rw [askedAreas_render]
  intro area mem
  obtain ⟨place, -, rfl⟩ := List.mem_map.mp mem
  exact Area.square_within _ place

theorem display_eq_of_askedAreas {other : View}
    (same : askedAreas (w.render view) = askedAreas (w.render other)) :
    view.display = other.display := by
  rw [askedAreas_render, askedAreas_render] at same
  have injective := Area.square_injective w.frame.scale_pos
  exact Display.eq_of_litPlaces (List.map_injective_iff.mpr injective same)

/-- A toolkit that gave a surface as large as the display keeps what is asked for. -/
theorem keptAreas_eq_askedAreas (sound : toolkit.Sound)
    (given : toolkit.surface (64 * w.frame.scale : Nat) (32 * w.frame.scale : Nat) =
      .ok (64 * w.frame.scale, 32 * w.frame.scale)) :
    keptAreas toolkit (w.render view) = askedAreas (w.render view) := by
  have same : ∀ area ∈ askedAreas (w.render view), toolkit.area area = area :=
    fun area mem => sound.keeps given area (w.askedAreas_within view area mem)
  rw [keptAreas, List.map_congr_left same, List.map_id']

/-- What is drawn of a display, at every scale and whatever the window's runner is at. A picture is
a fill, then one square for each lit pixel in the order in which pixels are stored, and then the
word of a stop, else that of a pause, if either is due. The squares that are asked for do not
overlap, lie in a surface that is as large as the display, and tell the display. What a toolkit
keeps of them is the same, if it gave the window a surface of this size. -/
theorem squares_tell_display (w : Window) :
    let scale := w.frame.scale
    (∀ view, w.render view =
      .draw (.fill Drawing.background) ::
        (view.display.litPlaces.map fun place =>
          .draw (.rectangle Drawing.foreground (place.val % 64 * scale) (place.val / 64 * scale)
            scale scale)) ++
        (w.wordOver view).toList.flatMap fun word =>
          [.draw (.text word ⟨255, 0, 0⟩), .draw (.putText 10 10)]) ∧
    (∀ view, askedAreas (w.render view) = view.display.litPlaces.map (Area.square scale)) ∧
    (∀ view, (askedAreas (w.render view)).Pairwise Area.Apart) ∧
    (∀ view, ∀ area ∈ askedAreas (w.render view), area.Within (64 * scale) (32 * scale)) ∧
    (∀ view other, askedAreas (w.render view) = askedAreas (w.render other) →
      view.display = other.display) ∧
    ∀ toolkit : Toolkit, toolkit.Sound → ∀ side caption,
      Frame.made toolkit side caption = .ok w.frame →
      w.frame.width = 64 * scale → w.frame.height = 32 * scale →
        ∀ view, keptAreas toolkit (w.render view) = askedAreas (w.render view) := by
  intro scale
  refine ⟨render_eq w, askedAreas_render w, askedAreas_apart w, askedAreas_within w,
    fun _ _ => display_eq_of_askedAreas, ?_⟩
  intro toolkit sound side caption opened width height view
  have given := Frame.surface_of_made opened
  rw [width, height] at given
  exact keptAreas_eq_askedAreas sound given

def framed (frame : Frame) : Window where
  runner := .new (Machine.fresh {} .silent) 10
  frame := frame
  programs := []
  sources := fun _ => .silent
  audible := false

/-- What a screen is shown of a machine that is at rest but for one lit pixel. -/
def spotted (place : Fin 2048) : View :=
  ⟨.single place, 0, 0, false⟩

def usual : Frame :=
  ⟨10, Nat.succ_pos 9, 640, 320, "chip8vm"⟩

theorem usual_square_is_kept :
    Toolkit.obliging.Sound ∧ Frame.made .obliging 10 "chip8vm" = .ok usual ∧
      keptAreas .obliging ((framed usual).render (spotted ⟨65, by decide⟩)) =
        [⟨10, 10, 10, 10⟩] := by
  obtain ⟨-, asked, -, -, -, kept⟩ := squares_tell_display (framed usual)
  refine ⟨Toolkit.obliging_sound, rfl, ?_⟩
  rw [kept .obliging Toolkit.obliging_sound 10 "chip8vm" rfl rfl rfl, asked, spotted,
    Display.litPlaces_single]
  rfl

/-- A toolkit that keeps the lowest 32 bits of every number, and has one surface for all. -/
def folding : Toolkit :=
  { Toolkit.obliging with
    surface := fun _ _ => .ok (1024, 768)
    area := fun area => ⟨area.left.bmod 0x100000000, area.top.bmod 0x100000000,
      area.width.bmod 0x100000000, area.height.bmod 0x100000000⟩ }

theorem folding_sound : folding.Sound := by
  have small {n : Int} (positive : 0 ≤ n) (below : n ≤ 1024) : n.bmod 0x100000000 = n := by
    rw [Int.bmod_def]
    omega
  constructor
  rintro width height given area ⟨left, wide, right, top, high, bottom⟩
  cases given
  simp only [folding]
  rw [small left (by omega), small top (by omega), small wide (by omega), small high (by omega)]

def vast : Frame :=
  ⟨134217728, by decide, 1024, 768, "chip8vm"⟩

/-- At the scale 2 ^ 27 a toolkit that obeys the law of rectangles need not keep the squares: the
surface is not as large as the display, and the square of a pixel in the middle of a row is kept as
that of the first pixel of the row. So the two overlap, and the displays cannot be told apart. -/
theorem vast_squares_fall_together :
    folding.Sound ∧ Frame.made folding 134217728 "chip8vm" = .ok vast ∧
    (∀ column ∈ [0, 32], keptAreas folding ((framed vast).render (spotted column)) =
      [⟨0, 0, 134217728, 134217728⟩]) ∧
    ¬ ∀ (toolkit : Toolkit) (side : Int) (caption : String) (w : Window) (view : View),
      toolkit.Sound → Frame.made toolkit side caption = .ok w.frame →
      keptAreas toolkit (w.render view) =
          view.display.litPlaces.map (Area.square w.frame.scale) ∧
        (keptAreas toolkit (w.render view)).Pairwise Area.Apart ∧
        (∀ area ∈ keptAreas toolkit (w.render view),
          area.Within (64 * w.frame.scale) (32 * w.frame.scale)) ∧
        ∀ other, keptAreas toolkit (w.render view) = keptAreas toolkit (w.render other) →
          view.display = other.display := by
  have folded : ∀ column ∈ [0, 32], keptAreas folding ((framed vast).render (spotted column)) =
      [⟨0, 0, 134217728, 134217728⟩] := by
    intro column mem
    rw [keptAreas, askedAreas_render, spotted, Display.litPlaces_single]
    rcases List.mem_pair.mp mem with rfl | rfl <;> decide
  refine ⟨folding_sound, rfl, folded, fun always => ?_⟩
  obtain ⟨same, -⟩ := always folding 134217728 "chip8vm" (framed vast) (spotted 32)
    folding_sound rfl
  rw [folded 32 (by simp), spotted, Display.litPlaces_single] at same
  exact absurd same (by decide)

end Window

end Chip8
