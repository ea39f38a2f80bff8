import Chip8.Proofs.Attempts
import Chip8.Proofs.Storage

/-!
Machines that their instructions cannot tell apart. What an instruction does with a machine hangs on
few of its parts: the mode of transfers, memory, the registers, the program counter, the stack, the
delay timer, the display, the random source, the cell that the index register names, and for three
instructions the keypad (`Machine.WorksLike`, `execute_worksLike`). The other parts follow rules of
their own, so machines that agree but for some of them go on to agree but for the same ones
(`AgreesBut`, `movedAll_agrees`).

In particular the index register counts modulo the size of memory and no further, though its values
are kept modulo 65536 (`index_counts_modulo_memory`).
-/

namespace Chip8

namespace Instruction

/-- Does an instruction look at the keypad? -/
def asksKeys : Instruction → Bool
  | .skipIfKey _ | .skipUnlessKey _ | .awaitKey _ => true
  | _ => false

end Instruction

namespace Machine

variable {m m' : Machine} {i : Instruction}

/-! ### What instructions read -/

/-- Two machines hold the same in all that instructions read, the keypad apart. Of the index
register they read only which cell it names. -/
structure WorksLike (m m' : Machine) : Prop where
  legacyStore : m.mode.legacyStore = m'.mode.legacyStore
  memory : m.memory = m'.memory
  registers : m.registers = m'.registers
  index : m.index % 4096 = m'.index % 4096
  pc : m.pc = m'.pc
  stack : m.stack = m'.stack
  delay : m.delay = m'.delay
  display : m.display = m'.display
  noise : m.noise = m'.noise

/-- Two instructions succeeded, or they were broken off for one cause, and machines that work alike
are left. -/
inductive OutcomesAlike : Except Interruption Machine → Except Interruption Machine → Prop where
  | ok {after after' : Machine} (like : after.WorksLike after') :
      OutcomesAlike (.ok after) (.ok after')
  | error {cause : Cause} {left left' : Machine} (like : left.WorksLike left') :
      OutcomesAlike (.error ⟨cause, left⟩) (.error ⟨cause, left'⟩)

namespace WorksLike

/-- What may differ between machines that work alike. -/
theorem exists_update (like : m.WorksLike m') :
    ∃ mode index sound keypad paused redraw skipped,
      m' = { m with
        mode := mode, index := index, sound := sound, keypad := keypad, paused := paused,
        redraw := redraw, skipped := skipped } := by
  obtain ⟨-, memory, registers, -, pc, stack, delay, display, noise⟩ := like
  refine ⟨m'.mode, m'.index, m'.sound, m'.keypad, m'.paused, m'.redraw, m'.skipped, ?_⟩
  rw [memory, registers, pc, stack, delay, display, noise]

theorem next (like : m.WorksLike m') : m.next.WorksLike m'.next :=
  { like with pc := congrArg (· + 2) like.pc }

theorem word (like : m.WorksLike m') : m.word = m'.word := by
  rw [Machine.word, Machine.word, like.memory, like.pc]

theorem atWord (like : m.WorksLike m') : m.AtWord ↔ m'.AtWord := by
  rw [AtWord, AtWord, like.pc]

theorem atMalformed (like : m.WorksLike m') : m.AtMalformed ↔ m'.AtMalformed := by
  rw [AtMalformed, AtMalformed, like.atWord, like.word]

theorem indexAfter (like : m.WorksLike m') (x : Register) :
    m.indexAfter x % 4096 = m'.indexAfter x % 4096 := by
  have same := like.index
  unfold Machine.indexAfter
  rw [like.legacyStore]
  split
  · omega
  · exact same

theorem loadedRegisters (like : m.WorksLike m') (x : Register) :
    m.loadedRegisters x = m'.loadedRegisters x := by
  have same := like.index
  unfold Machine.loadedRegisters
  rw [like.memory, like.registers]
  congr
  funext r
  rw [m'.memory.read_congr (show (m.index + r.val) % 4096 = (m'.index + r.val) % 4096 by omega)]

theorem storeNumbers (like : m.WorksLike m') {a b : Int} (same : a % 4096 = b % 4096)
    (values : List Int) : OutcomesAlike (m.storeNumbers a values) (m'.storeNumbers b values) := by
  induction values generalizing m m' a b with
  | nil => exact .ok like
  | cons value rest ih =>
      simp only [Machine.storeNumbers, writeMemory]
      by_cases byte : 0 ≤ value ∧ value ≤ 255
      · rw [if_pos byte, if_pos byte]
        have written : m.memory.write a (BitVec.ofInt 8 value) =
            m'.memory.write b (BitVec.ofInt 8 value) := by
          rw [like.memory, m'.memory.write_congr same]
        have stored : WorksLike { m with memory := m.memory.write a (BitVec.ofInt 8 value) }
            { m' with memory := m'.memory.write b (BitVec.ofInt 8 value) } :=
          { like with memory := written }
        exact ih stored (by omega)
      · rw [if_neg byte, if_neg byte]
        exact .error like

end WorksLike

/-- Machines that work alike carry an instruction out alike, if they have the same keys held or the
instruction does not look at the keypad. -/
theorem execute_worksLike (like : m.WorksLike m')
    (keys : i.asksKeys = true → m.keypad = m'.keypad) :
    OutcomesAlike (m.execute i) (m'.execute i) := by
  have index := like.index
  cases i with
  | ret =>
      cases shape : m.stack with
      | nil =>
          rw [execute_ret_nil shape, execute_ret_nil (like.stack ▸ shape), like.pc]
          exact .error like.next
      | cons address rest =>
          rw [execute_ret_cons shape, execute_ret_cons (like.stack ▸ shape)]
          exact .ok { like with pc := rfl, stack := rfl }
  | call target =>
      rw [execute_call, execute_call, like.stack, like.pc]
      by_cases room : m'.stack.length < stackLimit
      · rw [if_pos room, if_pos room]
        exact .ok { like with pc := rfl, stack := rfl }
      · rw [if_neg room, if_neg room]
        exact .error like.next
  | awaitKey x =>
      simp only [execute, keys rfl]
      cases m'.keypad.pressed with
      | nil => exact .ok like
      | cons key rest =>
          have registers : (m.next.setRegister x key.val).registers =
              (m'.next.setRegister x key.val).registers :=
            congrArg (Vector.set · x.val ((key.val : Int) % 256)) like.registers
          exact .ok { like.next with registers := registers }
  | storeDecimal x =>
      simp only [execute, like.registers]
      exact like.next.storeNumbers index _
  | storeRegisters x =>
      have stored := like.next.storeNumbers index (m'.registers.toList.take (x.val + 1))
      simp only [execute, like.registers]
      revert stored
      generalize m.next.storeNumbers m.index (m'.registers.toList.take (x.val + 1)) = first
      generalize m'.next.storeNumbers m'.index (m'.registers.toList.take (x.val + 1)) = second
      intro stored
      cases stored with
      | ok after => exact .ok { after with index := like.indexAfter x }
      | error left => exact .error left
  | loadRegisters x =>
      exact .ok { like.next with registers := like.loadedRegisters x, index := like.indexAfter x }
  | draw x y rows =>
      have sprite : m.memory.load m.index rows.val = m'.memory.load m'.index rows.val := by
        rw [like.memory, m'.memory.load_congr index]
      simp only [execute, drawSprite, sprite]
      obtain ⟨mode, index', sound, keypad, paused, redraw, skipped, rfl⟩ := like.exists_update
      exact .ok ⟨like.legacyStore, rfl, rfl, index, rfl, rfl, rfl, rfl, rfl⟩
  | addIndex x =>
      obtain ⟨mode, index', sound, keypad, paused, redraw, skipped, rfl⟩ := like.exists_update
      refine .ok ⟨like.legacyStore, rfl, rfl, ?_, rfl, rfl, rfl, rfl, rfl⟩
      change (m.index + m.registers.get x) % 65536 % 4096 =
        (index' + m.registers.get x) % 65536 % 4096
      change m.index % 4096 = index' % 4096 at index
      omega
  | loadIndex target | loadGlyph x =>
      obtain ⟨mode, index', sound, keypad, paused, redraw, skipped, rfl⟩ := like.exists_update
      exact .ok ⟨like.legacyStore, rfl, rfl, rfl, rfl, rfl, rfl, rfl, rfl⟩
  | skipIfKey x | skipUnlessKey x =>
      have same := keys rfl
      obtain ⟨mode, index', sound, keypad, paused, redraw, skipped, rfl⟩ := like.exists_update
      obtain rfl : m.keypad = keypad := same
      exact .ok ⟨like.legacyStore, rfl, rfl, index, rfl, rfl, rfl, rfl, rfl⟩
  | _ =>
      obtain ⟨mode, index', sound, keypad, paused, redraw, skipped, rfl⟩ := like.exists_update
      exact .ok ⟨like.legacyStore, rfl, rfl, index, rfl, rfl, rfl, rfl, rfl⟩

/-- Instructions that look at the keypad do not fail. -/
theorem execute_of_asksKeys (asks : i.asksKeys = true) : ∃ after, m.execute i = .ok after := by
  cases i with
  | skipIfKey x | skipUnlessKey x => exact ⟨_, rfl⟩
  | awaitKey x =>
      simp only [execute]
      split
      · exact ⟨_, rfl⟩
      · exact ⟨_, rfl⟩
  | _ => cases asks

/-- A failure is taken back alike, since its cause decides. -/
theorem takenBack_worksLike {cause : Cause} (like : m.WorksLike m') (pc : Int) :
    (Interruption.takenBack ⟨cause, m⟩ pc).left.WorksLike
      (Interruption.takenBack ⟨cause, m'⟩ pc).left := by
  cases cause with
  | fault f => exact { like with pc := rfl }
  | notAByte n => exact like

/-- Machines that work alike come to the same verdict on the next step and work alike behind it,
unless one of them is strict and the other not where it matters, or the keys differ where they
matter. -/
theorem step_worksLike (like : m.WorksLike m')
    (mode : m.AtMalformed → m.mode.strict = m'.mode.strict)
    (keys : ∀ i, m.verdict = .ok i → i.asksKeys = true → m.keypad = m'.keypad) :
    m.verdict = m'.verdict ∧ m.stepped.WorksLike m'.stepped := by
  have attempt := m.attempt
  generalize m.verdict = verdict, m.stepped = after at attempt
  cases attempt with
  | overrun outside =>
      obtain ⟨same, stepped⟩ := (Attempt.overrun (mt like.atWord.mpr outside)).spec
      rw [same, stepped, like.pc]
      exact ⟨rfl, like⟩
  | refused malformed strict =>
      have malformed' := like.atMalformed.mp malformed
      obtain ⟨same, stepped⟩ := (Attempt.refused malformed' (mode malformed ▸ strict)).spec
      rw [same, stepped, like.word, like.pc]
      exact ⟨rfl, like⟩
  | skipped malformed lenient =>
      have malformed' := like.atMalformed.mp malformed
      obtain ⟨same, stepped⟩ := (Attempt.skipped malformed' (mode malformed ▸ lenient)).spec
      rw [same, stepped, like.word]
      exact ⟨rfl, { like.next with }⟩
  | @done i after inside means done =>
      have alike := execute_worksLike like (keys i (Attempt.done inside means done).spec.1)
      rw [like.word, like.pc] at means
      rw [done] at alike
      generalize result : m'.execute i = outcome at alike
      cases alike with
      | ok after =>
          obtain ⟨same, stepped⟩ := (Attempt.done (like.atWord.mp inside) means result).spec
          rw [same, stepped]
          exact ⟨rfl, after⟩
  | @stopped i e inside means stopped =>
      have blind : i.asksKeys = true → m.keypad = m'.keypad := by
        intro asks
        obtain ⟨after, done⟩ := execute_of_asksKeys (m := m) asks
        rw [stopped] at done
        cases done
      have alike := execute_worksLike like blind
      rw [like.word, like.pc] at means
      rw [stopped] at alike
      generalize result : m'.execute i = outcome at alike
      cases alike with
      | error left =>
          obtain ⟨same, stepped⟩ := (Attempt.stopped (like.atWord.mp inside) means result).spec
          rw [same, stepped, like.pc]
          exact ⟨rfl, takenBack_worksLike left m'.pc⟩

/-! ### Machines that agree but for some parts -/

/-- The parts that no instruction reads for the sake of the others. Of the index register this is
what it holds beyond the cell that it names. -/
inductive Part where
  | index
  | strict
  | keypad
  | sound
  | redraw
  | paused
  | skipped
  deriving DecidableEq, Repr

/-- Two machines work alike, and of the other parts they differ in none but the loose ones. -/
structure AgreesBut (m : Machine) (loose : List Part) (m' : Machine) : Prop
    extends WorksLike m m' where
  exactly : .index ∉ loose → m.index = m'.index
  strict : .strict ∉ loose → m.mode.strict = m'.mode.strict
  keypad : .keypad ∉ loose → m.keypad = m'.keypad
  sound : .sound ∉ loose → m.sound = m'.sound
  redraw : .redraw ∉ loose → m.redraw = m'.redraw
  paused : .paused ∉ loose → m.paused = m'.paused
  skipped : .skipped ∉ loose → m.skipped = m'.skipped

/-- A machine with its loose parts taken from another one. -/
def exchanged (m : Machine) (loose : List Part) (m' : Machine) : Machine :=
  { m with
    index := if .index ∈ loose then m'.index else m.index
    mode := ⟨m.mode.legacyStore, if .strict ∈ loose then m'.mode.strict else m.mode.strict⟩
    keypad := if .keypad ∈ loose then m'.keypad else m.keypad
    sound := if .sound ∈ loose then m'.sound else m.sound
    redraw := if .redraw ∈ loose then m'.redraw else m.redraw
    paused := if .paused ∈ loose then m'.paused else m.paused
    skipped := if .skipped ∈ loose then m'.skipped else m.skipped }

/-- The next step looks at none of the loose parts: strictness matters at malformed words, and the
keypad to the instructions for keys. -/
structure BlindTo (m : Machine) (loose : List Part) : Prop where
  strict : .strict ∈ loose → ¬ m.AtMalformed
  keypad : .keypad ∈ loose → ∀ i, m.verdict = .ok i → i.asksKeys = false

variable {loose : List Part}

theorem nextIndex_congr (like : m.WorksLike m') (same : m.index = m'.index) (i : Instruction) :
    m.nextIndex i = m'.nextIndex i := by
  cases i <;> simp only [nextIndex, indexAfter, same, like.registers, like.legacyStore]

theorem nextSound_congr (like : m.WorksLike m') (same : m.sound = m'.sound) (i : Instruction) :
    m.nextSound i = m'.nextSound i := by
  cases i <;> simp only [nextSound, same, like.registers]

theorem nextRedraw_congr (same : m.redraw = m'.redraw) (i : Instruction) :
    m.nextRedraw i = m'.nextRedraw i := by
  cases i <;> simp only [nextRedraw, same]

theorem follow_congr {α : Type} {part part' : α} {next next' : Instruction → α}
    (same : part = part') (nexts : ∀ i, next i = next' i) (verdict : Verdict) :
    follow verdict part next = follow verdict part' next' := by
  cases verdict with
  | ok i => exact nexts i
  | error cause => exact same

/-- Machines agree but for some parts if one is the other with these parts exchanged, and their
index registers name one cell. -/
theorem agreesBut_iff :
    m.AgreesBut loose m' ↔
      m' = m.exchanged loose m' ∧ m'.index % 4096 = m.index % 4096 := by
  constructor
  · intro agrees
    refine ⟨?_, agrees.index.symm⟩
    rw [exchanged, ite_eq_left_iff.mpr agrees.exactly, ite_eq_left_iff.mpr agrees.strict,
      ite_eq_left_iff.mpr agrees.keypad, ite_eq_left_iff.mpr agrees.sound,
      ite_eq_left_iff.mpr agrees.redraw, ite_eq_left_iff.mpr agrees.paused,
      ite_eq_left_iff.mpr agrees.skipped, agrees.legacyStore, agrees.memory, agrees.registers,
      agrees.pc, agrees.stack, agrees.delay, agrees.display, agrees.noise]
  · rintro ⟨update, same⟩
    rw [update] at same ⊢
    constructor
    case toWorksLike => exact ⟨rfl, rfl, rfl, same.symm, rfl, rfl, rfl, rfl, rfl⟩
    all_goals
      intro tight
      exact (if_neg tight).symm

/-- Where neither strictness nor the keypad is loose, no step looks at a loose part. -/
theorem blindTo_of_tight (strict : .strict ∉ loose) (keypad : .keypad ∉ loose) (m : Machine) :
    m.BlindTo loose where
  strict mem := absurd mem strict
  keypad mem := absurd mem keypad

namespace AgreesBut

theorem skips (agrees : m.AgreesBut loose m') (blind : m.BlindTo loose) : m.skips = m'.skips := by
  simp only [Machine.skips, agrees.atMalformed]
  by_cases tight : .strict ∈ loose
  · have clear := mt agrees.atMalformed.mpr (blind.strict tight)
    rw [if_neg fun skips => clear skips.1, if_neg fun skips => clear skips.1]
  · rw [agrees.strict tight]

/-- Machines that agree but for parts at which the next step does not look come to the same verdict
on it and go on to agree. -/
theorem stepped (agrees : m.AgreesBut loose m') (blind : m.BlindTo loose) :
    m.verdict = m'.verdict ∧ m.stepped.AgreesBut loose m'.stepped := by
  have like := agrees.toWorksLike
  have strict : m.AtMalformed → m.mode.strict = m'.mode.strict := by
    intro malformed
    exact agrees.strict fun tight => blind.strict tight malformed
  have keys : ∀ i, m.verdict = .ok i → i.asksKeys = true → m.keypad = m'.keypad := by
    intro i carried asks
    refine agrees.keypad fun tight => ?_
    rw [blind.keypad tight i carried] at asks
    cases asks
  obtain ⟨same, after⟩ := step_worksLike like strict keys
  have leaves := m.stepped_leaves
  have leaves' := m'.stepped_leaves
  rw [← same] at leaves'
  refine ⟨same, after, ?_, ?_, ?_, ?_, ?_, ?_, ?_⟩
  · intro tight
    rw [leaves.index, leaves'.index]
    have index := agrees.exactly tight
    exact follow_congr index (nextIndex_congr like index) _
  · intro tight
    rw [leaves.mode, leaves'.mode, agrees.strict tight]
  · intro tight
    rw [leaves.keypad, leaves'.keypad, agrees.keypad tight]
  · intro tight
    rw [leaves.sound, leaves'.sound]
    have sound := agrees.sound tight
    exact follow_congr sound (nextSound_congr like sound) _
  · intro tight
    rw [leaves.redraw, leaves'.redraw]
    have redraw := agrees.redraw tight
    exact follow_congr redraw (nextRedraw_congr redraw) _
  · intro tight
    rw [leaves.paused, leaves'.paused, agrees.paused tight]
  · intro tight
    rw [leaves.skipped, leaves'.skipped, agrees.skipped tight, agrees.skips blind]

theorem countDown (agrees : m.AgreesBut loose m') : m.countDown.AgreesBut loose m'.countDown :=
  { agrees with
    delay := congrArg (max 0 <| · - 1) agrees.delay
    sound := fun tight => congrArg (max 0 <| · - 1) (agrees.sound tight) }

theorem act (agrees : m.AgreesBut loose m') (action : Keypad.Action) :
    (m.act action).AgreesBut loose (m'.act action) :=
  { agrees with keypad := fun tight => congrArg (Keypad.apply · action) (agrees.keypad tight) }

theorem moved (agrees : m.AgreesBut loose m') {move : Move}
    (blind : move = .step → m.BlindTo loose) :
    m.answer move = m'.answer move ∧ (m.moved move).AgreesBut loose (m'.moved move) := by
  cases move with
  | step =>
      obtain ⟨same, after⟩ := agrees.stepped (blind rfl)
      exact ⟨congrArg some same, after⟩
  | countDown => exact ⟨rfl, agrees.countDown⟩
  | act action => exact ⟨rfl, agrees.act action⟩

/-- Machines that agree but for some parts answer all moves alike and go on to agree, as long as no
step looks at these parts. -/
theorem movedAll (agrees : m.AgreesBut loose m') {moves : List Move}
    (blind : ∀ before, before ++ [.step] <+: moves → (m.movedAll before).BlindTo loose) :
    m.answers moves = m'.answers moves ∧
      (m.movedAll moves).AgreesBut loose (m'.movedAll moves) := by
  induction moves generalizing m m' with
  | nil => exact ⟨rfl, agrees⟩
  | cons move rest ih =>
      have first : move = .step → m.BlindTo loose := by
        rintro rfl
        exact blind [] (by simp)
      obtain ⟨answer, after⟩ := agrees.moved first
      have later : ∀ before, before ++ [.step] <+: rest →
          ((m.moved move).movedAll before).BlindTo loose := by
        intro before part
        exact blind (move :: before) (List.cons_prefix_cons.mpr ⟨rfl, part⟩)
      obtain ⟨answers, agree⟩ := ih after later
      exact ⟨by rw [Machine.answers, Machine.answers, answer, answers], agree⟩

end AgreesBut

/-! ### The index register -/

theorem agreesBut_index_iff :
    m.AgreesBut [.index] m' ↔
      m' = { m with index := m'.index } ∧ m'.index % 4096 = m.index % 4096 :=
  agreesBut_iff

/-- The index register counts modulo the size of memory. Two machines that are the same but for
their index registers, which are congruent, answer any moves alike: every step carries out the same
instruction or fails for the same cause. They go on to be the same but for their index registers,
which go on to be congruent. -/
theorem index_counts_modulo_memory (m : Machine) (index : Int)
    (same : index % 4096 = m.index % 4096) (moves : List Move) :
    let m' := { m with index := index }
    m'.answers moves = m.answers moves ∧
      ∃ index', m'.movedAll moves = { m.movedAll moves with index := index' } ∧
        index' % 4096 = (m.movedAll moves).index % 4096 := by
  intro m'
  have agrees : m.AgreesBut [.index] m' := agreesBut_index_iff.mpr ⟨rfl, same⟩
  have blind : ∀ before, before ++ [.step] <+: moves → (m.movedAll before).BlindTo [.index] := by
    intro before part
    exact blindTo_of_tight (by simp) (by simp) _
  obtain ⟨answers, agree⟩ := agrees.movedAll blind
  obtain ⟨update, congruent⟩ := agreesBut_index_iff.mp agree
  exact ⟨answers.symm, _, update, congruent⟩

/-- A machine that stores a block around the end of memory, moves its index register by the block
and by a register, and draws from there. -/
def wrapping : Machine :=
  { fresh { legacyStore := true } .silent with
    memory := initialMemory.store origin [0xF3, 0x55, 0xF1, 0x1E, 0xD0, 0x12, 0xF0, 0x65]
    index := 4094 }

theorem wrapping_below_zero :
    (4094 - 8192) % 4096 = wrapping.index % 4096 ∧
      let moves := [Move.step, .act (.press 3), .step, .countDown, .step, .step]
      let below := { wrapping with index := 4094 - 8192 }
      below.answers moves = wrapping.answers moves ∧
      (∃ index', below.movedAll moves = { wrapping.movedAll moves with index := index' } ∧
        index' % 4096 = (wrapping.movedAll moves).index % 4096) ∧
      (wrapping.movedAll moves).index = 4099 ∧ (below.movedAll moves).index = 61443 := by
  have same : (4094 - 8192) % 4096 = wrapping.index % 4096 := by decide
  obtain ⟨answers, agree⟩ := index_counts_modulo_memory wrapping (4094 - 8192) same
    [.step, .act (.press 3), .step, .countDown, .step, .step]
  exact ⟨same, answers, agree, by decide +kernel, by decide +kernel⟩

end Machine

end Chip8
