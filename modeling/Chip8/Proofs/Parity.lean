import Mathlib.Data.List.DropRight
import Chip8.Proofs.Footprint
import Chip8.Proofs.Runs
import Chip8.Proofs.Sprites

/-!
The display is the parity of what was drawn. A list of sprites turns every pixel over as often as
the sprites cover it (`Display.drawAll_eq_flipAll`), so neither their order matters nor a sprite
that is drawn twice (`Display.drawAll_perm`, `Display.drawAll_twice`). A run of a machine that
succeeds draws the sprites of its steps since the last one that cleared the display, each as it
stood in memory and in the registers when its step began (`Machine.display_of_after`). Together they
give the display behind any run, pixel by pixel (`Machine.display_is_parity`).
-/

namespace Chip8

namespace Display

variable {sprites sprites' : List Sprite} {sprite : Sprite}

def drawAll (display : Display) (sprites : List Sprite) : Display :=
  sprites.foldl (fun shown sprite => (shown.draw sprite.rows sprite.x sprite.y).1) display

/-! ### Sprites in a row -/

theorem drawAll_append (display : Display) (sprites sprites' : List Sprite) :
    display.drawAll (sprites ++ sprites') = (display.drawAll sprites).drawAll sprites' :=
  List.foldl_append

theorem flipAll_append (display : Display) (places places' : List (Fin 2048)) :
    (flipAll display (places ++ places')).1 = (flipAll (flipAll display places).1 places').1 := by
  have joined := congrArg Prod.fst
    (foldl_flip (flipAll display places).1 (flipAll display places).2 places')
  rw [flipAll, List.foldl_append]
  exact joined

/-- Drawing sprites is turning over the pixels of all of them. -/
theorem drawAll_eq_flipAll (display : Display) (sprites : List Sprite) :
    display.drawAll sprites = (flipAll display (sprites.flatMap Sprite.places)).1 := by
  induction sprites generalizing display with
  | nil => rfl
  | cons sprite rest ih =>
      rw [List.flatMap_cons, flipAll_append]
      exact ih _

/-- A pixel is turned over as often as it is covered. -/
theorem get_drawAll (display : Display) (sprites : List Sprite) (p : Fin 2048) :
    (display.drawAll sprites).get p =
      (display.get p ^^ decide ((sprites.flatMap Sprite.places).count p % 2 = 1)) := by
  rw [drawAll_eq_flipAll, get_flipAll]

theorem eq_of_get {display display' : Display} (same : ∀ p, display.get p = display'.get p) :
    display = display' :=
  Vector.ext fun k within => same ⟨k, within⟩

/-- The order in which sprites are drawn does not matter. -/
theorem drawAll_perm (perm : sprites.Perm sprites') (display : Display) :
    display.drawAll sprites = display.drawAll sprites' := by
  refine eq_of_get fun p => ?_
  rw [get_drawAll, get_drawAll, (perm.flatMap_right Sprite.places).count_eq]

/-- A sprite drawn twice leaves nothing. -/
theorem drawAll_twice (display : Display) (sprite : Sprite) :
    display.drawAll [sprite, sprite] = display := by
  refine eq_of_get fun p => ?_
  have even : ([sprite, sprite].flatMap Sprite.places).count p % 2 = 0 := by
    simp only [List.flatMap_cons, List.flatMap_nil, List.append_nil, List.count_append]
    omega
  rw [get_drawAll, even]
  simp

/-- Sprites with no more rows than the display cover a pixel once each. -/
theorem count_flatMap (short : ∀ sprite ∈ sprites, sprite.rows.length ≤ 32) (p : Fin 2048) :
    (sprites.flatMap Sprite.places).count p = sprites.countP (·.covers p) := by
  induction sprites with
  | nil => rfl
  | cons sprite rest ih =>
      obtain ⟨first, short⟩ := List.forall_mem_cons.mp short
      rw [List.flatMap_cons, List.count_append, count_of_short first, ih short, List.countP_cons,
        Nat.add_comm]
      cases sprite.covers p <;> rfl

end Display

namespace Machine

variable {m reached after : Machine} {i : Instruction} {n px py : Nat}

/-! ### What one step draws -/

def Clears (m : Machine) : Prop :=
  m.word = 0xE0

instance (m : Machine) : Decidable m.Clears :=
  inferInstanceAs (Decidable (_ = _))

/-- The machine stands at a drawing instruction whose sprite covers a pixel with a one. -/
def DrawsOn (m : Machine) (px py : Nat) : Prop :=
  (Opcode.ofWord m.word).family = 0xD ∧
    m.Covers (Opcode.ofWord m.word).x (Opcode.ofWord m.word).y (Opcode.ofWord m.word).n.val px py

instance (m : Machine) (px py : Nat) : Decidable (m.DrawsOn px py) :=
  inferInstanceAs (Decidable (_ ∧ _))

/-- The sprite that is drawn next, if the machine stands at a drawing instruction. -/
def sprite? (m : Machine) : Option Sprite :=
  let o := Opcode.ofWord m.word
  if o.family = 0xD then some (m.spriteAt o.x o.y o.n.val) else none

theorem sprite?_short {sprite : Sprite} (drawn : m.sprite? = some sprite) :
    sprite.rows.length ≤ 32 := by
  simp only [sprite?, Option.ite_none_right_eq_some, Option.some.injEq] at drawn
  obtain ⟨-, rfl⟩ := drawn
  exact m.spriteAt_short _ _ _

/-- The sprite that is drawn next covers what it is said to cover. -/
theorem drawsOn_iff (within : px < 64) (below : py < 32) :
    m.DrawsOn px py ↔
      ∃ sprite, m.sprite? = some sprite ∧ sprite.covers (Display.spot px py) = true := by
  rw [DrawsOn, covers_iff within below]
  simp only [sprite?, Option.ite_none_right_eq_some, Option.some.injEq]
  constructor
  · rintro ⟨draws, here⟩
    exact ⟨_, ⟨draws, rfl⟩, here⟩
  · rintro ⟨_, ⟨draws, rfl⟩, here⟩
    exact ⟨draws, here⟩

theorem Clears.family (clears : m.Clears) : (Opcode.ofWord m.word).family = 0x0 := by
  rw [show m.word = 0xE0 from clears]
  rfl

theorem execute_display (means : (Opcode.ofWord m.word).Means i) (done : m.execute i = .ok after) :
    after.display =
      if m.Clears then Display.dark else m.display.drawAll m.sprite?.toList := by
  by_cases clears : m.Clears
  · obtain rfl := means.unique (j := .clear) ⟨clears.family, clears⟩
    cases done
    rw [if_pos clears]
  · rw [if_neg clears, sprite?]
    by_cases family : (Opcode.ofWord m.word).family = 0xD
    · obtain rfl := means.unique (j := .draw _ _ _) ⟨family, rfl, rfl, rfl⟩
      cases done
      rw [if_pos family]
      rfl
    · have spared : i.draws = false := by
        rw [Bool.eq_false_iff]
        intro draws
        exact (means.of_draws draws).elim clears family
      rw [if_neg family]
      exact (execute_touches done).display spared

/-- A step clears the display, draws the sprite of its word or leaves the display as it is. -/
theorem step_display (done : m.step.value = .ok (i, after)) :
    after.display =
      if m.Clears then Display.dark else m.display.drawAll m.sprite?.toList := by
  rcases step_ok done with ⟨-, ⟨known, done⟩ | ⟨⟨f, malformed⟩, -, -, rfl⟩⟩
  · exact execute_display (Instruction.identify_eq_ok_iff_means.mp known) done
  · obtain ⟨family, -⟩ := Instruction.digits_of_malformed malformed
    have spared : ¬ m.Clears := by
      intro clears
      rw [clears.family] at family
      cases family
    have other : (Opcode.ofWord m.word).family ≠ 0xD := by
      rw [family]
      decide
    rw [if_neg spared, sprite?, if_neg other]
    rfl

/-! ### What a run draws -/

/-- The machines at which the steps of a run begin, behind the last one that clears the display. -/
def sinceClear (m : Machine) (n : Nat) : List Machine :=
  (m.trail n).rtakeWhile fun t => !decide t.Clears

/-- The display that these draw on. -/
def ground (m : Machine) (n : Nat) : Display :=
  if ∃ t ∈ m.trail n, t.Clears then Display.dark else m.display

theorem sinceClear_succ_of_clears (all : m.after? n = some reached) (clears : reached.Clears) :
    m.sinceClear (n + 1) = [] ∧ m.ground (n + 1) = Display.dark := by
  constructor
  · rw [sinceClear, trail_succ all]
    exact List.rtakeWhile_concat_neg _ _ _ (by simpa using clears)
  · refine if_pos ⟨reached, ?_, clears⟩
    simp [trail_succ all]

theorem sinceClear_succ (all : m.after? n = some reached) (spared : ¬ reached.Clears) :
    m.sinceClear (n + 1) = m.sinceClear n ++ [reached] ∧ m.ground (n + 1) = m.ground n := by
  constructor
  · rw [sinceClear, trail_succ all]
    exact List.rtakeWhile_concat_pos _ _ _ (by simpa using spared)
  · simp [ground, trail_succ all, spared, or_and_right, exists_or]

/-- A run that succeeds draws the sprites of its steps since the last that cleared the display. -/
theorem display_of_after (all : m.after? n = some reached) :
    reached.display = (m.ground n).drawAll ((m.sinceClear n).filterMap sprite?) := by
  induction n generalizing reached with
  | zero =>
      cases all
      simp [ground, trail, sinceClear, Display.drawAll]
  | succ n ih =>
      obtain ⟨before, i, start, done⟩ := after?_succ.mp all
      rw [step_display done]
      -- The last step takes back all that was drawn before it, or it draws on top of that.
      by_cases clears : before.Clears
      · obtain ⟨none, dark⟩ := sinceClear_succ_of_clears start clears
        rw [if_pos clears, none, dark]
        rfl
      · obtain ⟨one, same⟩ := sinceClear_succ start clears
        rw [if_neg clears, one, same, List.filterMap_append, Display.drawAll_append, ← ih start]
        rfl

theorem short_drawn (ms : List Machine) :
    ∀ sprite ∈ ms.filterMap sprite?, sprite.rows.length ≤ 32 := by
  intro sprite mem
  obtain ⟨t, -, drawn⟩ := List.mem_filterMap.mp mem
  exact sprite?_short drawn

/-- The sprites drawn from machines cover a pixel as often as one of the machines draws on it. -/
theorem countP_drawn (within : px < 64) (below : py < 32) (ms : List Machine) :
    (ms.filterMap sprite?).countP (·.covers (Display.spot px py)) =
      ms.countP (fun t => decide (t.DrawsOn px py)) := by
  rw [List.countP_filterMap]
  refine List.countP_congr fun t _ => ?_
  rw [decide_eq_true_iff, drawsOn_iff within below]
  cases t.sprite? <;> simp

/-- The display is the parity of what was drawn. Behind a run that succeeds a pixel is what it was
at the start, or dark if a step cleared the display, turned over once for each step since then at
which a drawing instruction stood and its sprite covered the pixel with a one; the sprite is the one
that memory and the registers had when that step began. The run drew nothing but these sprites.
Sprites leave the same display in whatever order they are drawn, and a sprite drawn twice leaves the
display as it was. -/
theorem display_is_parity :
    (∀ (m reached : Machine) (n : Nat), m.after? n = some reached →
      reached.display = (m.ground n).drawAll ((m.sinceClear n).filterMap sprite?) ∧
      ∀ px py, px < 64 → py < 32 →
        reached.display.lit px py =
          ((m.ground n).lit px py ^^
            decide ((m.sinceClear n).countP (fun t => decide (t.DrawsOn px py)) % 2 = 1))) ∧
    (∀ (display : Display) (sprites sprites' : List Sprite), sprites.Perm sprites' →
      display.drawAll sprites = display.drawAll sprites') ∧
    ∀ (display : Display) (sprite : Sprite), display.drawAll [sprite, sprite] = display := by
  refine ⟨?_, fun display _ _ perm => Display.drawAll_perm perm display, Display.drawAll_twice⟩
  intro m reached n all
  have drawn := display_of_after all
  refine ⟨drawn, fun px py within below => ?_⟩
  have parity := Display.get_drawAll (m.ground n) ((m.sinceClear n).filterMap sprite?)
    (Display.spot px py)
  rw [Display.count_flatMap (short_drawn _), countP_drawn within below, ← drawn] at parity
  exact parity

def sketching : Machine :=
  { fresh {} .silent with
    memory := initialMemory.store origin [0xD0, 0x15, 0x00, 0xE0, 0xD0, 0x15, 0xD0, 0x11] }

theorem sketching_takes_back :
    ∃ reached, sketching.after? 4 = some reached ∧
      reached.display.lit 0 0 = false ∧ reached.display.lit 0 1 = true := by
  have succeeds : (sketching.after? 4).isSome = true := by decide +kernel
  obtain ⟨reached, all⟩ := Option.isSome_iff_exists.mp succeeds
  obtain ⟨runs, -⟩ := display_is_parity
  obtain ⟨-, parity⟩ := runs sketching reached 4 all
  refine ⟨reached, all, ?_, ?_⟩
  · exact (parity 0 0 (by omega) (by omega)).trans (by decide +kernel)
  · exact (parity 0 1 (by omega) (by omega)).trans (by decide +kernel)

end Machine

end Chip8
