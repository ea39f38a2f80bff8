import Mathlib.Data.List.Induction
import Chip8.Proofs.Keys

/-!
Clients of a keypad. Whether a key is held is decided by the last action that can change it: a press
or a release of its code, or a release of all keys; where there is none, by the codes that the
keypad started with (`Keypad.holds_applyAll`). So the order in which the actions on different codes
fall makes no difference: two clients that share no code and do not release all keys come to the
same keypad, however their actions interleave, and what a keypad answers is the set of its held
codes (`Keypad.last_action_decides`).
-/

namespace Chip8

/-! ### Interleavings -/

/-- A list is put together from two others, each in its own order. -/
inductive Interleaving {α : Type} : List α → List α → List α → Prop where
  | nil : Interleaving [] [] []
  | left {a : α} {first second whole : List α} :
      Interleaving first second whole → Interleaving (a :: first) second (a :: whole)
  | right {a : α} {first second whole : List α} :
      Interleaving first second whole → Interleaving first (a :: second) (a :: whole)

namespace Interleaving

variable {α : Type} {first second whole : List α}

theorem swap (interleaving : Interleaving first second whole) :
    Interleaving second first whole := by
  induction interleaving with
  | nil => exact .nil
  | left _ ih => exact ih.right
  | right _ ih => exact ih.left

/-- What is chosen from an interleaving comes from one list alone, if nothing of the other can be
chosen. -/
theorem filter_eq (interleaving : Interleaving first second whole) {p : α → Bool}
    (none : ∀ a ∈ second, p a = false) : whole.filter p = first.filter p := by
  induction interleaving with
  | nil => rfl
  | left _ ih => rw [List.filter_cons, List.filter_cons, ih none]
  | @right a _ _ _ _ ih =>
      rw [List.filter_cons, none a List.mem_cons_self, if_neg Bool.false_ne_true]
      exact ih fun b mem => none b (List.mem_cons_of_mem a mem)

end Interleaving

namespace Keypad

namespace Action

def code? : Action → Option Int
  | .press code | .release code => some code
  | .clear => none

/-- The actions that can change whether the key with a code is held. -/
def on (code : Int) : List Action :=
  [.press code, .release code, .clear]

/-- The last among actions that can change whether the key with a code is held. -/
def lastOn? (code : Int) (actions : List Action) : Option Action :=
  (actions.filter (· ∈ on code)).getLast?

def codes (actions : List Action) : List Int :=
  actions.filterMap code?

theorem lastOn?_concat (code : Int) (actions : List Action) (action : Action) :
    lastOn? code (actions ++ [action]) =
      if action ∈ on code then some action else lastOn? code actions := by
  by_cases acts : action ∈ on code
  · simp [lastOn?, List.filter_append, acts]
  · simp [lastOn?, List.filter_append, acts]

/-- Actions that are no release of all keys do nothing to a code that they do not name. -/
theorem not_on_of_unnamed {actions : List Action} {code : Int} (keeps : .clear ∉ actions)
    (unnamed : code ∉ codes actions) {action : Action} (mem : action ∈ actions) :
    action ∉ on code := by
  intro acts
  simp only [on, List.mem_cons, List.not_mem_nil, or_false] at acts
  rcases acts with rfl | rfl | rfl
  · exact unnamed (List.mem_filterMap.mpr ⟨_, mem, rfl⟩)
  · exact unnamed (List.mem_filterMap.mpr ⟨_, mem, rfl⟩)
  · exact keeps mem

/-- In an interleaving, a code that one client does not name is the other's alone. -/
theorem lastOn?_of_interleaving {first second whole : List Action}
    (interleaving : Interleaving first second whole) {code : Int} (keeps : .clear ∉ second)
    (unnamed : code ∉ codes second) : lastOn? code whole = lastOn? code first := by
  have none : ∀ action ∈ second, decide (action ∈ on code) = false :=
    fun action mem => decide_eq_false (not_on_of_unnamed keeps unnamed mem)
  rw [lastOn?, interleaving.filter_eq none, lastOn?]

end Action

def applyAll (keypad : Keypad) (actions : List Action) : Keypad :=
  actions.foldl apply keypad

variable {keypad other : Keypad} {code : Int}

/-! ### The set of held codes -/

theorem inside_and_holds_iff :
    0 ≤ code ∧ code < 16 ∧ keypad.Holds code ↔ keypad.Holds code :=
  ⟨fun ⟨_, _, holds⟩ => holds, fun holds => ⟨holds.inside.1, holds.inside.2, holds⟩⟩

theorem not_holds_released (code : Int) : ¬ released.Holds code := by
  rw [← isPressed_iff_holds, isPressed_released]
  exact Bool.false_ne_true

/-! ### One action and many -/

theorem holds_press (keypad : Keypad) (code pressed : Int) :
    (keypad.press pressed).Holds code ↔
      0 ≤ code ∧ code < 16 ∧ (pressed = code ∨ keypad.Holds code) := by
  rw [← put_true, holds_put]
  by_cases same : pressed = code <;> simp [same]

theorem holds_release (keypad : Keypad) (code released : Int) :
    (keypad.release released).Holds code ↔ released ≠ code ∧ keypad.Holds code := by
  rw [← put_false, holds_put]
  by_cases same : released = code <;> simp [same, inside_and_holds_iff]

/-- After an action a code is held if the action pressed it, or if it was held before and the
action did nothing to it. -/
theorem holds_apply (keypad : Keypad) (action : Action) (code : Int) :
    (keypad.apply action).Holds code ↔
      0 ≤ code ∧ code < 16 ∧
        (action = .press code ∨ action ∉ Action.on code ∧ keypad.Holds code) := by
  cases action with
  | press pressed =>
      change (keypad.press pressed).Holds code ↔ _
      rw [holds_press]
      by_cases same : pressed = code
      · simp [same]
      · simp [same, Action.on]
  | release released =>
      change (keypad.release released).Holds code ↔ _
      rw [holds_release]
      by_cases same : released = code
      · simp [same, Action.on]
      · simp [same, Action.on, inside_and_holds_iff]
  | clear =>
      change released.Holds code ↔ _
      simp [Action.on, not_holds_released]

/-- The last action on a code decides whether it is held, and without one the keypad before. -/
theorem holds_applyAll (keypad : Keypad) (actions : List Action) (code : Int) :
    (keypad.applyAll actions).Holds code ↔
      0 ≤ code ∧ code < 16 ∧
        (Action.lastOn? code actions = some (.press code) ∨
          Action.lastOn? code actions = none ∧ keypad.Holds code) := by
  induction actions using List.reverseRecOn with
  | nil => simp [applyAll, Action.lastOn?, inside_and_holds_iff]
  | append_singleton actions action ih =>
      have step : keypad.applyAll (actions ++ [action]) =
          (keypad.applyAll actions).apply action := by
        rw [applyAll, List.foldl_append]
        rfl
      rw [step, holds_apply, Action.lastOn?_concat]
      split
      · rename_i acts
        simp [acts]
      · rename_i idle
        have other : action ≠ .press code := fun press => idle (by simp [press, Action.on])
        simp only [other, idle, not_false_eq_true, true_and, false_or]
        rw [inside_and_holds_iff, ih]

theorem holds_ofCodes (codes : List Int) (code : Int) :
    (ofCodes codes).Holds code ↔ 0 ≤ code ∧ code < 16 ∧ code ∈ codes := by
  induction codes using List.reverseRecOn with
  | nil => simp [ofCodes, not_holds_released]
  | append_singleton codes pressed ih =>
      have step : ofCodes (codes ++ [pressed]) = (ofCodes codes).press pressed := by
        rw [ofCodes, List.foldl_append]
        rfl
      rw [step, holds_press, ih, List.mem_append, List.mem_singleton]
      grind

/-! ### What a keypad answers -/

/-- All that a keypad answers agrees with a set of codes: the list of its held keys, the questions
for one key and for any key, and its text, which names the keys in ascending order. -/
structure Answers (keypad : Keypad) (held : Int → Prop) : Prop where
  pressed : ∀ code, keypad.Holds code ↔ held code
  isPressed : ∀ code, keypad.isPressed code = true ↔ held code
  anyPressed : keypad.anyPressed = true ↔ ∃ code, held code
  text : ∃ codes : List Int, codes.Pairwise (· < ·) ∧ (∀ code, code ∈ codes ↔ held code) ∧
    keypad.text = "Keypad(\x7b" ++ ",".intercalate (codes.map (Numeral.hex 1)) ++ "\x7d)"

theorem anyPressed_iff : keypad.anyPressed = true ↔ ∃ code, keypad.Holds code := by
  cases pressed : keypad.pressed with
  | nil => simp [anyPressed, Holds, pressed]
  | cons key rest =>
      have holds : keypad.Holds key.val := ⟨key, pressed ▸ List.mem_cons_self, rfl⟩
      simp only [anyPressed, pressed, List.isEmpty_cons, Bool.not_false, true_iff]
      exact ⟨key.val, holds⟩

/-- What a keypad answers agrees with the codes that it holds. -/
theorem answers_holds (keypad : Keypad) : keypad.Answers keypad.Holds where
  pressed _ := Iff.rfl
  isPressed _ := isPressed_iff_holds
  anyPressed := anyPressed_iff
  text := by
    refine ⟨keypad.pressed.map fun key => (key.val : Int), ?_, ?_, ?_⟩
    · have ascending : keypad.pressed.Pairwise (· < ·) := (List.pairwise_lt_finRange 16).filter _
      exact List.pairwise_map.mpr (ascending.imp fun less => Int.ofNat_lt.mpr less)
    · intro code
      simp only [List.mem_map, Holds]
      exact exists_congr fun key => and_congr_right fun _ => eq_comm
    · rw [text, List.map_map]
      rfl

/-- The last action on a key wins. After any actions on a keypad that started with any codes, a code
is held exactly if it is that of a key and the last action that can change it, among those that
press it, let it go or let all keys go, pressed it; or there was none, and the keypad started with
it. All that the keypad answers agrees with that. So if two clients share no code and do not let all
keys go, the keypad that they leave does not hang on how their actions interleave. -/
theorem last_action_decides (codes : List Int) :
    (∀ actions : List Action,
      ((ofCodes codes).applyAll actions).Answers fun code =>
        0 ≤ code ∧ code < 16 ∧
          (Action.lastOn? code actions = some (.press code) ∨
            Action.lastOn? code actions = none ∧ code ∈ codes)) ∧
    ∀ first second whole other : List Action,
      .clear ∉ first → .clear ∉ second →
      List.Disjoint (Action.codes first) (Action.codes second) →
      Interleaving first second whole → Interleaving first second other →
      (ofCodes codes).applyAll whole = (ofCodes codes).applyAll other := by
  constructor
  · intro actions
    have held : ((ofCodes codes).applyAll actions).Holds = fun code =>
        0 ≤ code ∧ code < 16 ∧
          (Action.lastOn? code actions = some (.press code) ∨
            Action.lastOn? code actions = none ∧ code ∈ codes) := by
      funext code
      rw [holds_applyAll, holds_ofCodes]
      grind
    rw [← held]
    exact answers_holds _
  · intro first second whole other firstKeeps secondKeeps disjoint toWhole toOther
    refine eq_of_holds fun code => ?_
    -- The last action on a code is that of the client that names it.
    have same : Action.lastOn? code whole = Action.lastOn? code other := by
      by_cases named : code ∈ Action.codes first
      · have unnamed : code ∉ Action.codes second := fun mem => disjoint named mem
        rw [Action.lastOn?_of_interleaving toWhole secondKeeps unnamed,
          Action.lastOn?_of_interleaving toOther secondKeeps unnamed]
      · rw [Action.lastOn?_of_interleaving toWhole.swap firstKeeps named,
          Action.lastOn?_of_interleaving toOther.swap firstKeeps named]
    rw [holds_applyAll, holds_applyAll, same]

def drums : List Action :=
  [.press 1, .release 1, .press 20]

def bass : List Action :=
  [.press 2, .press (-1)]

def together : List Action :=
  [.press 1, .press 2, .release 1, .press (-1), .press 20]

/-- By turns or one behind the other, the clients leave the same keys held: one that was held at the
start and that neither names, and the one that was not let go. -/
theorem drumming_ends_alike :
    (.clear ∉ drums ∧ .clear ∉ bass ∧ List.Disjoint (Action.codes drums) (Action.codes bass) ∧
      Interleaving drums bass together ∧ Interleaving drums bass (bass ++ drums)) ∧
    (ofCodes [15, 1, 99]).applyAll together = (ofCodes [15, 1, 99]).applyAll (bass ++ drums) ∧
    ((ofCodes [15, 1, 99]).applyAll together).text = "Keypad({2,F})" := by
  have drumsKeep : .clear ∉ drums := by decide
  have bassKeeps : .clear ∉ bass := by decide
  have disjoint : List.Disjoint (Action.codes drums) (Action.codes bass) := by
    intro code inDrums inBass
    change code ∈ [1, 1, 20] at inDrums
    change code ∈ [2, -1] at inBass
    simp at inDrums inBass
    omega
  have turns : Interleaving drums bass together :=
    .left (.right (.left (.right (.left .nil))))
  have apart : Interleaving drums bass (bass ++ drums) :=
    .right (.right (.left (.left (.left .nil))))
  refine ⟨⟨drumsKeep, bassKeeps, disjoint, turns, apart⟩, ?_, by decide +kernel⟩
  exact (last_action_decides _).2 _ _ _ _ drumsKeep bassKeeps disjoint turns apart

end Keypad

end Chip8
