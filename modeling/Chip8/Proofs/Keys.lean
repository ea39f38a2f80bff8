import Chip8.Keypad

/-!
Laws of the keypad. A code is pressed exactly if it is that of a key among the held ones
(`Keypad.isPressed_iff`, `Keypad.isPressed_iff_holds`), and to press a key or to let it go changes
this key and no other (`Keypad.held_put`, `Keypad.holds_put`). The held keys are listed from the
least on (`Keypad.le_of_pressed`).
-/

namespace Chip8.Keypad

/-- A code from 0 to 15 is that of a key. -/
theorem exists_key {code : Int} (inside : 0 ≤ code ∧ code < 16) :
    ∃ key : Key, code = key.val :=
  ⟨⟨code.toNat, by omega⟩, by simp; omega⟩

theorem isPressed_key (keypad : Keypad) (key : Key) :
    keypad.isPressed key.val = keypad.held.get key := by
  have code : Key.ofCode? key.val = some key := dif_pos (by omega)
  simp only [isPressed, code]
  rfl

/-- A code is pressed if it is that of a key that is held. -/
theorem isPressed_iff {keypad : Keypad} {code : Int} :
    keypad.isPressed code = true ↔ ∃ key : Key, code = key.val ∧ keypad.held.get key = true := by
  constructor
  · intro pressed
    by_cases inside : 0 ≤ code ∧ code < 16
    · obtain ⟨key, rfl⟩ := exists_key inside
      exact ⟨key, rfl, (keypad.isPressed_key key).symm.trans pressed⟩
    · simp only [isPressed, Key.ofCode?, dif_neg inside] at pressed
      cases pressed
  · rintro ⟨key, rfl, held⟩
    exact (keypad.isPressed_key key).trans held

theorem isPressed_released (code : Int) : released.isPressed code = false := by
  unfold isPressed
  split
  · simp [released]
  · rfl

/-- The keypad on which the key with a code is held down or let go. -/
def put (keypad : Keypad) (code : Int) (down : Bool) : Keypad :=
  if down then keypad.press code else keypad.release code

theorem put_true (keypad : Keypad) (code : Int) : keypad.put code true = keypad.press code :=
  rfl

theorem put_false (keypad : Keypad) (code : Int) : keypad.put code false = keypad.release code :=
  rfl

theorem held_put (keypad : Keypad) (key other : Key) (down : Bool) :
    (keypad.put key.val down).held.get other =
      if key = other then down else keypad.held.get other := by
  have code : Key.ofCode? key.val = some key := dif_pos (by omega)
  have written : (keypad.put key.val down).held = keypad.held.set key.val down := by
    cases down
    · simp only [put_false, release, code]
    · simp only [put_true, press, code]
  rw [written]
  change (keypad.held.set key.val down)[other.val] = _
  rw [Vector.getElem_set]
  simp only [Fin.ext_iff]
  rfl

theorem put_of_outside {keypad : Keypad} {code : Int} (outside : ¬ (0 ≤ code ∧ code < 16))
    (down : Bool) : keypad.put code down = keypad := by
  cases down
  · simp only [put_false, release, Key.ofCode?, dif_neg outside]
  · simp only [put_true, press, Key.ofCode?, dif_neg outside]

theorem held_press (keypad : Keypad) (key other : Key) :
    (keypad.press key.val).held.get other =
      if key = other then true else keypad.held.get other := by
  rw [← put_true, held_put]

theorem held_release (keypad : Keypad) (key other : Key) :
    (keypad.release key.val).held.get other =
      if key = other then false else keypad.held.get other := by
  rw [← put_false, held_put]

/-! ### Held keys -/

/-- A number is the code of a key that is held. -/
def Holds (keypad : Keypad) (code : Int) : Prop :=
  ∃ key ∈ keypad.pressed, code = key.val

instance (keypad : Keypad) (code : Int) : Decidable (keypad.Holds code) :=
  inferInstanceAs (Decidable (∃ key ∈ keypad.pressed, code = key.val))

theorem mem_pressed_iff {keypad : Keypad} {key : Key} :
    key ∈ keypad.pressed ↔ keypad.held.get key = true := by
  rw [pressed, List.mem_filter]
  exact and_iff_right (List.mem_finRange key)

theorem isPressed_iff_holds {keypad : Keypad} {code : Int} :
    keypad.isPressed code = true ↔ keypad.Holds code := by
  rw [isPressed_iff]
  constructor
  · rintro ⟨key, same, held⟩
    exact ⟨key, mem_pressed_iff.mpr held, same⟩
  · rintro ⟨key, mem, same⟩
    exact ⟨key, same, mem_pressed_iff.mp mem⟩

theorem holds_key (keypad : Keypad) (key : Key) :
    keypad.Holds key.val ↔ keypad.held.get key = true := by
  rw [← isPressed_iff_holds, isPressed_key]

/-- Keypads that hold the same codes are the same. -/
theorem eq_of_holds {keypad other : Keypad}
    (same : ∀ code, keypad.Holds code ↔ other.Holds code) : keypad = other := by
  obtain ⟨held⟩ := keypad
  obtain ⟨otherHeld⟩ := other
  have equal : held = otherHeld := by
    refine Vector.ext fun i bound => Bool.eq_iff_iff.mpr ?_
    have key := same (⟨i, bound⟩ : Key).val
    rw [holds_key, holds_key] at key
    exact key
  rw [equal]

/-- Only the code of a key can be held. -/
theorem Holds.inside {keypad : Keypad} {code : Int} (holds : keypad.Holds code) :
    0 ≤ code ∧ code < 16 := by
  obtain ⟨key, -, rfl⟩ := holds
  omega

theorem not_holds_of_gt (keypad : Keypad) {code : Int} (beyond : 15 < code) :
    ¬ keypad.Holds code :=
  fun holds => absurd holds.inside.2 (by omega)

/-- What is written for a code decides whether this code is held and no other, and a code that is no
key's is never held. -/
theorem holds_put (keypad : Keypad) (code written : Int) (down : Bool) :
    (keypad.put written down).Holds code ↔
      0 ≤ code ∧ code < 16 ∧ if written = code then down = true else keypad.Holds code := by
  by_cases inside : 0 ≤ code ∧ code < 16
  · obtain ⟨key, rfl⟩ := exists_key inside
    by_cases known : 0 ≤ written ∧ written < 16
    · obtain ⟨changed, rfl⟩ := exists_key known
      rw [holds_key, held_put, holds_key]
      by_cases same : changed = key
      · simp [same, inside]
      · have codes : ¬ ((changed.val : Int) = key.val) := fun equal => same (Fin.ext (by omega))
        simp [same, codes, inside]
    · have codes : ¬ (written = key.val) := fun equal => known (equal ▸ inside)
      rw [put_of_outside known, if_neg codes]
      simp [inside]
  · constructor
    · exact fun holds => absurd holds.inside inside
    · exact fun ⟨low, high, _⟩ => absurd ⟨low, high⟩ inside

/-- The held keys are listed in ascending order, so the first is the least code that is held. -/
theorem le_of_pressed {keypad : Keypad} {key : Key} {rest : List Key}
    (pressed : keypad.pressed = key :: rest) {code : Int} (held : keypad.Holds code) :
    key.val ≤ code := by
  have ascending : keypad.pressed.Pairwise (· < ·) := (List.pairwise_lt_finRange 16).filter _
  obtain ⟨other, mem, rfl⟩ := held
  rw [pressed] at mem ascending
  rcases List.mem_cons.mp mem with rfl | later
  · exact Int.le_refl _
  · have least := Fin.lt_def.mp ((List.pairwise_cons.mp ascending).1 other later)
    omega

end Chip8.Keypad
