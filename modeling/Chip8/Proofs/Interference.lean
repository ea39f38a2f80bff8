import Mathlib.Data.List.Basic
import Chip8.Proofs.Agreement

/-!
What does not reach the course of a machine. Its course is what its steps answer and what becomes of
the parts that they work with.

Keys reach it through the instructions that ask for them and through nothing else: a client's
actions on the keypad, wherever they fall, change neither the verdicts of the steps nor any part but
the keypad, as long as the same moves without the actions carry out no such instruction
(`keys_act_through_key_instructions`).

The sound timer, the request for a picture, the count of skipped words and the pause do not reach it
at all: whatever they hold, the moves are answered alike and all other parts become the same, and
words are skipped alike (`observed_parts_stay_behind`).
-/

namespace Chip8

namespace Move

def isAct : Move → Bool
  | .act _ => true
  | .step | .countDown => false

end Move

namespace Machine

variable {m m' : Machine} {loose : List Part} {moves : List Move}

/-- The verdicts on the steps among moves, one after the other. -/
def verdicts (m : Machine) (moves : List Move) : List Verdict :=
  (m.answers moves).filterMap id

/-! ### Keys -/

theorem verdicts_step (m : Machine) (moves : List Move) :
    m.verdicts (.step :: moves) = m.verdict :: m.stepped.verdicts moves :=
  rfl

/-- No step among moves carries out an instruction that looks at the keypad. -/
def AsksNoKeys (m : Machine) (moves : List Move) : Prop :=
  ∀ i, .ok i ∈ m.verdicts moves → i.asksKeys = false

theorem AsksNoKeys.blindTo (asksNone : m.AsksNoKeys (.step :: moves)) : m.BlindTo [.keypad] where
  strict mem := by simp at mem
  keypad _ i carried := by
    apply asksNone i
    rw [verdicts_step, carried]
    exact List.mem_cons_self

theorem AsksNoKeys.stepped (asksNone : m.AsksNoKeys (.step :: moves)) :
    m.stepped.AsksNoKeys moves := by
  intro i carried
  apply asksNone i
  rw [verdicts_step]
  exact List.mem_cons_of_mem _ carried

/-- A client's action on the keypad of one of two machines that agree but for their keypads. -/
theorem AgreesBut.act_right (agrees : m.AgreesBut [.keypad] m') (action : Keypad.Action) :
    m.AgreesBut [.keypad] (m'.act action) :=
  { agrees with keypad := fun tight => by simp at tight }

/-- A machine whose keypad is left alone and one that goes through the same moves and actions on its
keypad between them. -/
theorem AgreesBut.movedAll_keys (agrees : m.AgreesBut [.keypad] m')
    (asksNone : m.AsksNoKeys (moves.filter (!·.isAct))) :
    m'.verdicts moves = m.verdicts (moves.filter (!·.isAct)) ∧
      (m.movedAll (moves.filter (!·.isAct))).AgreesBut [.keypad] (m'.movedAll moves) := by
  induction moves generalizing m m' with
  | nil => exact ⟨rfl, agrees⟩
  | cons move rest ih =>
      cases move with
      | act action =>
          rw [List.filter_cons_of_neg (by simp [Move.isAct])] at asksNone ⊢
          exact ih (agrees.act_right action) asksNone
      | countDown =>
          rw [List.filter_cons_of_pos (by simp [Move.isAct])] at asksNone ⊢
          exact ih agrees.countDown asksNone
      | step =>
          rw [List.filter_cons_of_pos (by simp [Move.isAct])] at asksNone ⊢
          obtain ⟨same, after⟩ := agrees.stepped asksNone.blindTo
          obtain ⟨verdicts, agree⟩ := ih after asksNone.stepped
          refine ⟨?_, agree⟩
          rw [verdicts_step, verdicts_step, same, verdicts]

/-- Keys act through the instructions that ask for them. Take any moves on a machine, with a
client's actions on its keypad anywhere among them, and the same moves without the actions. If the
steps of the latter carry out no instruction that looks at the keypad, then both come to the same
verdicts, step by step: the same instructions, and at the same step the same failure. The machines
that are left differ in their keypads at most. -/
theorem keys_act_through_key_instructions (m : Machine) (moves : List Move)
    (asksNone : m.AsksNoKeys (moves.filter (!·.isAct))) :
    let bare := moves.filter (!·.isAct)
    m.verdicts moves = m.verdicts bare ∧
      m.movedAll moves = { m.movedAll bare with keypad := (m.movedAll moves).keypad } := by
  intro bare
  have start : m.AgreesBut [.keypad] m := agreesBut_iff.mpr ⟨rfl, rfl⟩
  obtain ⟨verdicts, agree⟩ := start.movedAll_keys asksNone
  obtain ⟨update, -⟩ := agreesBut_iff.mp agree
  exact ⟨verdicts, update⟩

def returning : Machine :=
  { fresh {} .silent with
    memory := initialMemory.store origin [0x60, 0x05, 0xF0, 0x15, 0x00, 0xEE] }

def drummed : List Move :=
  [.act (.press 5), .step, .act (.press 99), .countDown, .act .clear, .step, .act (.release 5),
    .step, .act (.press 3), .countDown]

theorem returning_ignores_keys :
    returning.AsksNoKeys (drummed.filter (!·.isAct)) ∧
      returning.verdicts drummed =
        [.ok (.loadByte 0 5), .ok (.setDelay 0), .error (.fault (.stackUnderflow 0x204))] ∧
      (returning.movedAll drummed).keypad ≠ returning.keypad ∧
      returning.movedAll drummed =
        { returning.movedAll [.step, .countDown, .step, .step, .countDown] with
          keypad := (returning.movedAll drummed).keypad } := by
  have carried : returning.verdicts (drummed.filter (!·.isAct)) =
      [.ok (.loadByte 0 5), .ok (.setDelay 0), .error (.fault (.stackUnderflow 0x204))] := by
    decide +kernel
  have asksNone : returning.AsksNoKeys (drummed.filter (!·.isAct)) := by
    intro i mem
    rw [carried] at mem
    simp only [List.mem_cons, Except.ok.injEq, reduceCtorEq, List.not_mem_nil, or_false] at mem
    rcases mem with rfl | rfl
    · rfl
    · rfl
  obtain ⟨verdicts, moved⟩ := keys_act_through_key_instructions returning drummed asksNone
  exact ⟨asksNone, verdicts.trans carried, by decide +kernel, moved⟩

/-! ### Parts that are only observed -/

/-- The parts of a machine that a window, a speaker and a journal are shown, and the pause, which is
the runner's. -/
def observed : List Part :=
  [.sound, .redraw, .paused, .skipped]

theorem blindTo_observed (m : Machine) : m.BlindTo observed :=
  blindTo_of_tight (by decide) (by decide) m

/-- A move adds as many skipped words to the one count as to the other. -/
theorem AgreesBut.moved_skipped (agrees : m.AgreesBut loose m') {move : Move}
    (blind : move = .step → m.BlindTo loose) :
    (m'.moved move).skipped - m'.skipped = (m.moved move).skipped - m.skipped := by
  cases move with
  | step =>
      change m'.stepped.skipped - m'.skipped = m.stepped.skipped - m.skipped
      rw [m.stepped_leaves.skipped, m'.stepped_leaves.skipped, agrees.skips (blind rfl)]
      omega
  | countDown | act action =>
      change m'.skipped - m'.skipped = m.skipped - m.skipped
      omega

theorem AgreesBut.movedAll_skipped (agrees : m.AgreesBut observed m') (moves : List Move) :
    (m'.movedAll moves).skipped - m'.skipped = (m.movedAll moves).skipped - m.skipped := by
  induction moves generalizing m m' with
  | nil =>
      change m'.skipped - m'.skipped = m.skipped - m.skipped
      omega
  | cons move rest ih =>
      have blind : move = .step → m.BlindTo observed := fun _ => m.blindTo_observed
      have first := agrees.moved_skipped blind
      have later := ih (agrees.moved blind).2
      change ((m'.moved move).movedAll rest).skipped - m'.skipped =
        ((m.moved move).movedAll rest).skipped - m.skipped
      omega

/-- The sound timer, the request for a picture, the pause and the count of skipped words are only
observed. Whatever two machines hold there, if they are the same otherwise, they answer any moves
alike: every step carries out the same instruction or fails for the same cause. They go on to be the
same but for these four parts, and equally many words are added to their counts of skipped words. -/
theorem observed_parts_stay_behind (m : Machine) (sound : Int) (redraw paused : Bool)
    (skipped : Int) (moves : List Move) :
    let m' := { m with sound := sound, redraw := redraw, paused := paused, skipped := skipped }
    m'.answers moves = m.answers moves ∧
      (∃ sound' redraw' paused' skipped', m'.movedAll moves =
        { m.movedAll moves with
          sound := sound', redraw := redraw', paused := paused', skipped := skipped' }) ∧
      (m'.movedAll moves).skipped - m'.skipped = (m.movedAll moves).skipped - m.skipped := by
  intro m'
  have agrees : m.AgreesBut observed m' := agreesBut_iff.mpr ⟨rfl, rfl⟩
  obtain ⟨answers, agree⟩ := agrees.movedAll fun before _ => (m.movedAll before).blindTo_observed
  obtain ⟨update, -⟩ := agreesBut_iff.mp agree
  exact ⟨answers.symm, ⟨_, _, _, _, update⟩, agrees.movedAll_skipped moves⟩

end Machine

end Chip8
