import Mathlib.Data.List.Nodup
import Chip8.Proofs.Stepping
import Chip8.Proofs.Storage

/-!
Sprites, pixel by pixel. The display turns the pixels of a sprite over one after the other and asks
each of them for a hit by the way. A sprite with no more rows than the display comes to no pixel
twice, around whatever edges it runs (`Display.nodup_covered`), and so this is the same as to look
at every pixel once: it is turned over if the sprite covers it (`Display.lit_draw`), and there is a
hit if the sprite covers a lit one (`Display.draw_hit_iff`).

`Machine.Covers` says by arithmetic which pixels the sprite of a drawing instruction covers, and
`Machine.draw_is_exact` what the instruction makes of them.
-/

namespace Chip8

/-- A sprite to be drawn: its rows and where its top left corner stands. -/
structure Sprite where
  rows : List Byte
  x : Nat
  y : Nat
  deriving DecidableEq, Repr

def Sprite.places (sprite : Sprite) : List (Fin 2048) :=
  Display.covered sprite.rows sprite.x sprite.y

def Sprite.covers (sprite : Sprite) (p : Fin 2048) : Bool :=
  sprite.places.contains p

theorem Sprite.covers_iff {sprite : Sprite} {p : Fin 2048} :
    sprite.covers p = true ↔ p ∈ sprite.places :=
  List.contains_iff_mem

namespace Display

variable {display : Display} {sprite : List Byte} {x y : Nat} {p : Fin 2048}

/-! ### Turning pixels over -/

theorem spot_eq_iff {a b c d : Nat} : spot a b = spot c d ↔ a % 64 = c % 64 ∧ b % 32 = d % 32 := by
  rw [Fin.ext_iff]
  simp only [spot]
  omega

/-- Every pixel is the spot of a column and a row. -/
theorem exists_spot (p : Fin 2048) : ∃ px py, px < 64 ∧ py < 32 ∧ spot px py = p := by
  refine ⟨p.val % 64, p.val / 64, by omega, by omega, ?_⟩
  rw [Fin.ext_iff]
  simp only [spot]
  omega

theorem get_flip (display : Display) (place p : Fin 2048) :
    (flip display place).get p = (display.get p ^^ decide (place = p)) := by
  change (display.set place.val (!display[place]))[p.val] = (display[p.val] ^^ decide (place = p))
  rw [Vector.getElem_set]
  by_cases same : place = p
  · subst same
    simp
  · have apart : place.val ≠ p.val := fun h => same (Fin.ext h)
    simp [same, apart]

/-- What was hit before stays hit, and the pixels do not depend on it. -/
theorem foldl_flip (display : Display) (hit : Bool) (places : List (Fin 2048)) :
    places.foldl (fun (shown, hit) place => (flip shown place, hit || shown.get place))
        (display, hit) =
      ((flipAll display places).1, hit || (flipAll display places).2) := by
  induction places generalizing display hit with
  | nil => simp [flipAll]
  | cons place rest ih =>
      have first : flipAll display (place :: rest) =
          rest.foldl (fun (shown, hit) place => (flip shown place, hit || shown.get place))
            (flip display place, false || display.get place) := rfl
      rw [List.foldl_cons, first, ih, ih]
      simp [Bool.or_assoc]

theorem flipAll_cons (display : Display) (place : Fin 2048) (rest : List (Fin 2048)) :
    flipAll display (place :: rest) =
      ((flipAll (flip display place) rest).1,
        display.get place || (flipAll (flip display place) rest).2) := by
  rw [← foldl_flip]
  rfl

/-- A pixel is turned over as often as it is in the list. -/
theorem get_flipAll (display : Display) (places : List (Fin 2048)) (p : Fin 2048) :
    (flipAll display places).1.get p = (display.get p ^^ decide (places.count p % 2 = 1)) := by
  induction places generalizing display with
  | nil => simp [flipAll]
  | cons place rest ih =>
      rw [flipAll_cons, ih, get_flip, List.count_cons, Bool.xor_assoc]
      congr 1
      by_cases same : place = p
      · rcases Nat.mod_two_eq_zero_or_one (rest.count p) with even | odd
        · simp [same, even, Nat.add_mod]
        · simp [same, odd, Nat.add_mod]
      · simp [same]

/-- Where no pixel is turned over twice, a lit pixel is hit if it was lit at the start. -/
theorem flipAll_hit {places : List (Fin 2048)} (once : places.Nodup) (display : Display) :
    (flipAll display places).2 = true ↔ ∃ p ∈ places, display.get p = true := by
  induction places generalizing display with
  | nil => simp [flipAll]
  | cons place rest ih =>
      obtain ⟨fresh, once⟩ := List.nodup_cons.mp once
      have same : ∀ p ∈ rest, (flip display place).get p = display.get p := by
        intro p mem
        have apart : place ≠ p := fun h => fresh (h ▸ mem)
        rw [get_flip, decide_eq_false apart, Bool.xor_false]
      rw [flipAll_cons, Bool.or_eq_true, ih once, List.exists_mem_cons_iff]
      refine or_congr_right (exists_congr fun p => and_congr_right fun mem => ?_)
      rw [same p mem]

/-! ### The pixels of a sprite -/

theorem mem_covered_iff :
    p ∈ covered sprite x y ↔
      ∃ row byte col, sprite[row]? = some byte ∧ col < 8 ∧ byte.getMsbD col = true ∧
        spot (x + col) (y + row) = p := by
  simp only [covered, List.mem_flatMap, List.mem_map, List.mem_filter, List.mem_range, Prod.exists,
    List.mem_zipIdx_iff_getElem?]
  constructor
  · rintro ⟨byte, row, at_row, col, ⟨within, one⟩, here⟩
    exact ⟨row, byte, col, at_row, within, one, here⟩
  · rintro ⟨row, byte, col, at_row, within, one, here⟩
    exact ⟨byte, row, at_row, col, ⟨within, one⟩, here⟩

/-- A sprite with no more rows than the display covers no pixel twice. -/
theorem nodup_covered (short : sprite.length ≤ 32) (x y : Nat) : (covered sprite x y).Nodup := by
  -- The dots of one row differ in their columns, and rows in their heights, around the edges too.
  rw [covered, List.nodup_flatMap]
  constructor
  · rintro ⟨byte, row⟩ -
    refine List.Nodup.map_on ?_ (List.nodup_range.filter _)
    intro a memA b memB same
    have withinA := List.mem_range.mp (List.mem_of_mem_filter memA)
    have withinB := List.mem_range.mp (List.mem_of_mem_filter memB)
    obtain ⟨across, -⟩ := spot_eq_iff.mp same
    omega
  · rw [List.pairwise_iff_getElem]
    intro i j withinI withinJ before p memI memJ
    rw [List.length_zipIdx] at withinI withinJ
    simp only [List.getElem_zipIdx, List.mem_map] at memI memJ
    obtain ⟨a, -, rfl⟩ := memI
    obtain ⟨b, -, same⟩ := memJ
    obtain ⟨-, down⟩ := spot_eq_iff.mp same
    omega

/-- A sprite with no more rows than the display covers a pixel once or not at all. -/
theorem count_of_short {s : Sprite} (short : s.rows.length ≤ 32) (p : Fin 2048) :
    s.places.count p = (s.covers p).toNat := by
  have once : s.places.Nodup := nodup_covered short s.x s.y
  cases covers : s.covers p with
  | true => exact List.count_eq_one_of_mem once (Sprite.covers_iff.mp covers)
  | false =>
      refine List.count_eq_zero.mpr fun mem => ?_
      rw [Sprite.covers_iff.mpr mem] at covers
      cases covers

/-- Drawing a sprite turns over the pixels that it covers. -/
theorem lit_draw {s : Sprite} (short : s.rows.length ≤ 32) (display : Display) (px py : Nat) :
    (display.draw s.rows s.x s.y).1.lit px py =
      (display.lit px py ^^ s.covers (spot px py)) := by
  change (flipAll display s.places).1.get (spot px py) = (display.get (spot px py) ^^ _)
  rw [get_flipAll, count_of_short short]
  cases s.covers (spot px py) <;> rfl

/-- A sprite hits exactly if it covers a pixel that was lit. -/
theorem draw_hit_iff {s : Sprite} (short : s.rows.length ≤ 32) (display : Display) :
    (display.draw s.rows s.x s.y).2 = true ↔
      ∃ px < 64, ∃ py < 32, display.lit px py = true ∧ s.covers (spot px py) = true := by
  rw [draw, flipAll_hit (nodup_covered short s.x s.y)]
  constructor
  · rintro ⟨p, mem, lit⟩
    obtain ⟨px, py, within, below, rfl⟩ := exists_spot p
    exact ⟨px, within, py, below, lit, Sprite.covers_iff.mpr mem⟩
  · rintro ⟨px, -, py, -, lit, covers⟩
    exact ⟨spot px py, Sprite.covers_iff.mp covers, lit⟩

end Display

namespace Machine

variable {m : Machine} {x y : Register} {px py : Nat}

/-! ### Where a sprite comes to lie -/

/-- The dot in a row and a column of a sprite comes to lie on a pixel, if the corner of the sprite
stands where the registers `x` and `y` say. -/
structure PutsOn (m : Machine) (x y : Register) (row col px py : Nat) : Prop where
  across : (px : Int) = (m.registers.get x + col) % 64
  down : (py : Int) = (m.registers.get y + row) % 32

instance (m : Machine) (x y : Register) (row col px py : Nat) :
    Decidable (m.PutsOn x y row col px py) :=
  decidable_of_iff (_ ∧ _) ⟨fun ⟨a, d⟩ => ⟨a, d⟩, fun ⟨a, d⟩ => ⟨a, d⟩⟩

/-- The sprite in memory from the index register on, a number of rows high, covers a pixel with a
one. The highest bit of a byte is its leftmost dot, and addresses are counted around the end of
memory. -/
def Covers (m : Machine) (x y : Register) (rows px py : Nat) : Prop :=
  ∃ row < rows, ∃ col < 8, m.PutsOn x y row col px py ∧
    (m.memory.read (m.index + row)).getLsbD (7 - col) = true

instance (m : Machine) (x y : Register) (rows px py : Nat) : Decidable (m.Covers x y rows px py) :=
  inferInstanceAs (Decidable (∃ row < rows, ∃ col < 8, _))

/-- Only one dot of a sprite that is not too high comes to lie on a pixel. -/
theorem PutsOn.unique {row col row' col' : Nat} (on : m.PutsOn x y row col px py)
    (on' : m.PutsOn x y row' col' px py) (above : row < 32) (above' : row' < 32)
    (within : col < 8) (within' : col' < 8) : row = row' ∧ col = col' := by
  obtain ⟨across, down⟩ := on
  obtain ⟨across', down'⟩ := on'
  omega

theorem putsOn_iff {row col : Nat} (within : px < 64) (below : py < 32) :
    m.PutsOn x y row col px py ↔
      Display.spot ((m.registers.get x % Display.width).toNat + col)
        ((m.registers.get y % Display.height).toNat + row) = Display.spot px py := by
  rw [Display.spot_eq_iff, Display.width, Display.height]
  constructor
  · rintro ⟨across, down⟩
    omega
  · rintro ⟨across, down⟩
    exact ⟨by omega, by omega⟩

def spriteAt (m : Machine) (x y : Register) (rows : Nat) : Sprite where
  rows := m.memory.load m.index rows
  x := (m.registers.get x % Display.width).toNat
  y := (m.registers.get y % Display.height).toNat

theorem length_spriteAt (m : Machine) (x y : Register) (rows : Nat) :
    (m.spriteAt x y rows).rows.length = rows :=
  m.memory.length_load m.index rows

/-- The pixels that a sprite covers on the display are those that it is said to cover. -/
theorem covers_iff {rows : Nat} (within : px < 64) (below : py < 32) :
    m.Covers x y rows px py ↔ (m.spriteAt x y rows).covers (Display.spot px py) = true := by
  rw [Sprite.covers_iff, Sprite.places, Display.mem_covered_iff]
  constructor
  · rintro ⟨row, above, col, inside, on, one⟩
    have here := (putsOn_iff within below).mp on
    refine ⟨row, _, col, Memory.getElem?_load.mpr ⟨above, rfl⟩, inside, ?_, here⟩
    simpa [BitVec.getMsbD, inside] using one
  · rintro ⟨row, byte, col, at_row, inside, one, here⟩
    obtain ⟨above, rfl⟩ := Memory.getElem?_load.mp at_row
    refine ⟨row, above, col, inside, (putsOn_iff within below).mpr here, ?_⟩
    simpa [BitVec.getMsbD, inside] using one

/-! ### Drawing instructions -/

/-- The sprite runs into a lit pixel. -/
def Hits (m : Machine) (x y : Register) (rows : Nat) : Prop :=
  ∃ px < 64, ∃ py < 32, m.display.lit px py = true ∧ m.Covers x y rows px py

theorem spriteAt_short (m : Machine) (x y : Register) (rows : Fin 16) :
    (m.spriteAt x y rows.val).rows.length ≤ 32 := by
  rw [length_spriteAt]
  omega

/-- A pixel is lit behind a drawing if it was lit or is covered, but not if both. -/
theorem drawSprite_lit (m : Machine) (x y : Register) (rows : Fin 16) (within : px < 64)
    (below : py < 32) :
    (m.drawSprite x y rows).display.lit px py =
      (m.display.lit px py ^^ decide (m.Covers x y rows px py)) := by
  have same : decide (m.Covers x y rows px py) =
      (m.spriteAt x y rows).covers (Display.spot px py) := by
    rw [Bool.eq_iff_iff, decide_eq_true_iff, covers_iff within below]
  rw [same]
  exact Display.lit_draw (m.spriteAt_short x y rows) m.display px py

/-- A drawing hits if its sprite runs into a lit pixel. -/
theorem hits_iff {rows : Fin 16} :
    m.Hits x y rows ↔
      (m.display.draw (m.spriteAt x y rows).rows (m.spriteAt x y rows).x
        (m.spriteAt x y rows).y).2 = true := by
  rw [Display.draw_hit_iff (m.spriteAt_short x y rows), Hits]
  constructor
  · rintro ⟨px, within, py, below, lit, covers⟩
    exact ⟨px, within, py, below, lit, (covers_iff within below).mp covers⟩
  · rintro ⟨px, within, py, below, lit, here⟩
    exact ⟨px, within, py, below, lit, (covers_iff within below).mpr here⟩

/-- The flag register tells whether a drawing hit. -/
theorem drawSprite_flag (m : Machine) (x y : Register) (rows : Fin 16) :
    (m.Hits x y rows → (m.drawSprite x y rows).registers.get 0xF = 1) ∧
      (¬ m.Hits x y rows → (m.drawSprite x y rows).registers.get 0xF = 0) := by
  have flag : (m.drawSprite x y rows).registers.get 0xF =
      flagNumber (m.display.draw (m.spriteAt x y rows).rows (m.spriteAt x y rows).x
        (m.spriteAt x y rows).y).2 % 256 := Vector.getElem_set_self _
  constructor
  · intro hits
    rw [flag, hits_iff.mp hits]
    rfl
  · intro misses
    rw [hits_iff, Bool.not_eq_true] at misses
    rw [flag, misses]
    rfl

/-- Without rows nothing is covered. -/
theorem not_covers_zero : ¬ m.Covers x y 0 px py := by
  rintro ⟨row, above, -⟩
  exact Nat.not_lt_zero row above

/-- Drawing is exact. No two dots of a sprite come to lie on one pixel. The step at a drawing
instruction lights every pixel that was lit or is covered but not both, sets the flag register to
one if a lit pixel is covered and to zero if not, and asks for the display to be shown. Where the
sprite lies is up to the registers before the step, and one of them may be the flag register. A
sprite without rows changes no pixel and is no hit. -/
theorem draw_is_exact (inside : m.AtWord) (x y : Register) (rows : Fin 16)
    (word : m.word = 0xD000 + 0x100 * x.val + 0x10 * y.val + rows.val) :
    (∀ px py row col row' col', row < rows.val → col < 8 → row' < rows.val → col' < 8 →
      m.PutsOn x y row col px py → m.PutsOn x y row' col' px py → row = row' ∧ col = col') ∧
    ∃ after, m.step.value = .ok (.draw x y rows, after) ∧
      (∀ px py, px < 64 → py < 32 →
        after.display.lit px py = (m.display.lit px py ^^ decide (m.Covers x y rows px py))) ∧
      (m.Hits x y rows → after.registers.get 0xF = 1) ∧
      (¬ m.Hits x y rows → after.registers.get 0xF = 0) ∧
      after.redraw = true ∧
      (rows = 0 → after.display = m.display ∧ after.registers.get 0xF = 0) := by
  constructor
  · intro px py row col row' col' above within above' within' on on'
    exact on.unique on' (by omega) (by omega) within within'
  · obtain ⟨family, first, second, last⟩ := Opcode.ofWord_digits 0xD word
    have known : Instruction.identify m.word m.pc = .ok (.draw x y rows) :=
      Instruction.identify_eq_ok_iff_means.mpr ⟨family, first.symm, second.symm, last.symm⟩
    obtain ⟨hits, misses⟩ := m.drawSprite_flag x y rows
    refine ⟨(m.drawSprite x y rows).next, step_of_done inside known rfl, ?_, hits, misses, rfl, ?_⟩
    · intro px py within below
      exact m.drawSprite_lit x y rows within below
    · rintro rfl
      refine ⟨rfl, misses ?_⟩
      rintro ⟨px, -, py, -, -, covers⟩
      exact not_covers_zero covers

def cornering : Machine :=
  { fresh {} .silent with
    memory := initialMemory.store origin [0xDF, 0x12]
    registers := Vector.ofFn fun r => if r = 15 then 190 else 31
    index := Font.address
    display := Display.dark.flip (Display.spot 1 0) }

theorem cornering_wraps :
    cornering.AtWord ∧ cornering.word = 0xDF12 ∧
      ∃ after, cornering.step.value = .ok (.draw 15 1 2, after) ∧
        after.display.lit 1 31 = true ∧ after.display.lit 1 0 = false ∧
        after.registers.get 0xF = 1 := by
  have inside : cornering.AtWord := by decide
  have word : cornering.word = 0xDF12 := by decide +kernel
  have around : cornering.Covers 15 1 2 1 31 := by decide +kernel
  have below : cornering.Covers 15 1 2 1 0 := by decide +kernel
  have upper : cornering.display.lit 1 31 = false := by decide +kernel
  have lower : cornering.display.lit 1 0 = true := by decide +kernel
  obtain ⟨-, after, step, pixels, hits, -⟩ := draw_is_exact inside 15 1 2 word
  refine ⟨inside, word, after, step, ?_, ?_, ?_⟩
  · simpa [around, upper] using pixels 1 31 (by omega) (by omega)
  · simpa [below, lower] using pixels 1 0 (by omega) (by omega)
  · exact hits ⟨1, by omega, 0, by omega, lower, below⟩

end Machine

end Chip8
