import Chip8.Proofs.Agreement

/-!
Strict machines and lenient ones. The two differ at malformed words and nowhere else: as long as its
steps come upon none, a machine and its strict twin answer all moves alike and stay twins, and at
the first such word the strict machine refuses the step where the lenient one skips the word
(`strictness_shows_at_malformed`). A lenient machine counts every malformed word that its steps come
upon (`skipped_movedAll`).
-/

namespace Chip8

namespace Machine

variable {m m' : Machine}

def strictTwin (m : Machine) : Machine :=
  { m with mode := { m.mode with strict := true } }

/-- How many malformed words the steps among moves come upon. -/
def malformedMet (m : Machine) : List Move → Nat
  | [] => 0
  | move :: rest =>
      (if move = .step ∧ m.AtMalformed then 1 else 0) + (m.moved move).malformedMet rest

/-! ### Moves keep the mode and count malformed words -/

theorem moved_mode (m : Machine) (move : Move) : (m.moved move).mode = m.mode := by
  cases move with
  | step => exact m.stepped_leaves.mode
  | countDown | act action => rfl

theorem movedAll_mode (m : Machine) (moves : List Move) : (m.movedAll moves).mode = m.mode := by
  induction moves generalizing m with
  | nil => rfl
  | cons move rest ih => exact (ih (m.moved move)).trans (m.moved_mode move)

/-- A lenient machine counts the malformed word at which it tries a step. -/
theorem moved_skipped (lenient : m.mode.strict = false) (move : Move) :
    (m.moved move).skipped =
      m.skipped + ((if move = .step ∧ m.AtMalformed then 1 else 0 : Nat) : Int) := by
  cases move with
  | step =>
      change m.stepped.skipped = _
      rw [m.stepped_leaves.skipped, skips]
      by_cases malformed : m.AtMalformed
      · rw [if_pos ⟨malformed, lenient⟩, if_pos ⟨rfl, malformed⟩]
        rfl
      · rw [if_neg fun skips => malformed skips.1, if_neg fun met => malformed met.2]
        rfl
  | countDown | act action =>
      rw [if_neg (by simp)]
      exact (Int.add_zero _).symm

theorem skipped_movedAll (lenient : m.mode.strict = false) (moves : List Move) :
    (m.movedAll moves).skipped = m.skipped + m.malformedMet moves := by
  induction moves generalizing m with
  | nil => exact (Int.add_zero _).symm
  | cons move rest ih =>
      have still : (m.moved move).mode.strict = false := by rw [moved_mode, lenient]
      calc (m.movedAll (move :: rest)).skipped
          = (m.moved move).skipped + (m.moved move).malformedMet rest := ih still
        _ = m.skipped + m.malformedMet (move :: rest) := by
          rw [moved_skipped lenient, malformedMet]
          omega

/-- Where no malformed word was met, no step was tried at one. -/
theorem not_atMalformed_of_unmet {moves before : List Move} (unmet : m.malformedMet moves = 0)
    (part : before ++ [.step] <+: moves) : ¬ (m.movedAll before).AtMalformed := by
  induction moves generalizing m before with
  | nil => simp at part
  | cons move rest ih =>
      rw [malformedMet, Nat.add_eq_zero_iff] at unmet
      obtain ⟨first, later⟩ := unmet
      cases before with
      | nil =>
          obtain ⟨rfl, -⟩ := List.cons_prefix_cons.mp part
          intro malformed
          rw [if_pos ⟨rfl, malformed⟩] at first
          cases first
      | cons other before =>
          obtain ⟨rfl, within⟩ := List.cons_prefix_cons.mp part
          exact ih (m := m.moved other) later within

/-! ### Twins -/

theorem blindTo_strict (clear : ¬ m.AtMalformed) : m.BlindTo [.strict] where
  strict _ := clear
  keypad mem := by simp at mem

theorem strictTwin_agrees (m : Machine) : m.AgreesBut [.strict] m.strictTwin :=
  agreesBut_iff.mpr ⟨rfl, rfl⟩

/-- A strict machine that agrees with another but for strictness is its strict twin. -/
theorem AgreesBut.eq_strictTwin (agrees : m.AgreesBut [.strict] m')
    (strict : m'.mode.strict = true) : m' = m.strictTwin := by
  obtain ⟨update, -⟩ := agreesBut_iff.mp agrees
  calc m' = { m with mode := ⟨m.mode.legacyStore, m'.mode.strict⟩ } := update
    _ = m.strictTwin := by
      rw [strict]
      rfl

/-- At a malformed word a strict machine refuses the step and a lenient one skips the word. -/
theorem AtMalformed.step (malformed : m.AtMalformed) :
    m.step.value =
      if m.mode.strict then .error (.refusal m (.malformed m.word m.pc))
      else .ok (.unknown m.word, { m.next with skipped := m.skipped + 1 }) := by
  obtain ⟨inside, refused⟩ := atMalformed_iff.mp malformed
  exact step_of_malformed inside refused

/-- Strictness shows at malformed words and nowhere else. Whatever moves a lenient machine and its
strict twin go through: if no step of the lenient machine comes upon a malformed word, the two
answer all moves alike and stay twins. If the lenient machine then stands at such a word, the next
step of its twin comes to a fault that names the word and its place and leaves the twin as it was,
while the lenient machine moves on behind the word and counts it. The count of skipped words grows
by the malformed words that the steps came upon. -/
theorem strictness_shows_at_malformed (m : Machine) (lenient : m.mode.strict = false)
    (moves : List Move) :
    let reached := m.movedAll moves
    (m.malformedMet moves = 0 →
      m.strictTwin.answers moves = m.answers moves ∧
      m.strictTwin.movedAll moves = reached.strictTwin ∧
      (reached.AtMalformed →
        reached.strictTwin.step.value =
          .error ⟨.fault (.malformed reached.word reached.pc), reached.strictTwin⟩ ∧
        reached.step.value =
          .ok (.unknown reached.word,
            { reached with pc := reached.pc + 2, skipped := reached.skipped + 1 }))) ∧
    reached.skipped = m.skipped + m.malformedMet moves := by
  intro reached
  refine ⟨?_, skipped_movedAll lenient moves⟩
  intro unmet
  have mode : reached.mode.strict = false := by rw [movedAll_mode, lenient]
  obtain ⟨answers, agree⟩ := m.strictTwin_agrees.movedAll fun before part =>
    blindTo_strict (not_atMalformed_of_unmet unmet part)
  have strict : (m.strictTwin.movedAll moves).mode.strict = true := by
    rw [movedAll_mode]
    rfl
  refine ⟨answers.symm, agree.eq_strictTwin strict, ?_⟩
  intro malformed
  constructor
  · have twin : reached.strictTwin.AtMalformed := malformed
    exact twin.step
  · rw [malformed.step, mode]
    rfl

def stumbling : Machine :=
  { fresh {} .silent with
    memory := initialMemory.store origin [0x60, 0x05, 0x51, 0x23, 0x12, 0x00] }

theorem stumbling_counts :
    stumbling.mode.strict = false ∧
      (stumbling.malformedMet [.step, .countDown] = 0 ∧
        (stumbling.movedAll [.step, .countDown]).AtMalformed ∧
        (stumbling.strictTwin.movedAll [.step, .countDown]).step.value =
          .error ⟨.fault (.malformed 0x5123 0x202),
            (stumbling.movedAll [.step, .countDown]).strictTwin⟩) ∧
      (stumbling.movedAll (List.replicate 8 .step)).skipped =
        stumbling.skipped + stumbling.malformedMet (List.replicate 8 .step) ∧
      stumbling.malformedMet (List.replicate 8 .step) = 3 := by
  have lenient : stumbling.mode.strict = false := rfl
  have unmet : stumbling.malformedMet [.step, .countDown] = 0 := by decide +kernel
  have malformed : (stumbling.movedAll [.step, .countDown]).AtMalformed := by decide +kernel
  have word : (stumbling.movedAll [.step, .countDown]).word = 0x5123 := by decide +kernel
  have pc : (stumbling.movedAll [.step, .countDown]).pc = 0x202 := by decide +kernel
  obtain ⟨first, -⟩ := strictness_shows_at_malformed stumbling lenient [.step, .countDown]
  obtain ⟨-, twin, stops⟩ := first unmet
  obtain ⟨refused, -⟩ := stops malformed
  rw [word, pc, ← twin] at refused
  obtain ⟨-, counted⟩ := strictness_shows_at_malformed stumbling lenient (List.replicate 8 .step)
  refine ⟨lenient, ⟨unmet, malformed, ?_⟩, counted, by decide +kernel⟩
  rw [refused, twin]

end Machine

end Chip8
