import Chip8.Proofs.Attempts
import Chip8.Proofs.OpcodeTable
import Chip8.Proofs.Storage

/-!
What an instruction may touch. For each instruction there are the registers that it may write
(`Instruction.Writes`), the number of cells that it stores (`Instruction.cellsStored`) and whether
it draws (`Instruction.draws`). An instruction that succeeds writes no other register and no other
cell, and leaves the display alone unless it draws (`Machine.execute_touches`). With the form of the
words that stand for an instruction this gives the footprint of a word (`Machine.Footprint`): a step
that succeeds changes only what its word is for (`Machine.step_footprint`).
-/

namespace Chip8

namespace Instruction

def Writes : Instruction → Register → Prop
  | .loadByte x _, r | .addByte x _, r | .random x _, r => r = x
  | .copy x _, r | .or x _, r | .and x _, r | .xor x _, r => r = x
  | .readDelay x, r | .awaitKey x, r => r = x
  | .add x _, r | .subtract x _, r | .subtractFrom x _, r => r = x ∨ r = 0xF
  | .shiftRight x _, r | .shiftLeft x _, r => r = x ∨ r = 0xF
  | .draw _ _ _, r => r = 0xF
  | .loadRegisters x, r => r ≤ x
  | _, _ => False

/-- How many cells of memory an instruction stores, from the one on that the index register
names. -/
def cellsStored : Instruction → Nat
  | .storeDecimal _ => 3
  | .storeRegisters x => x.val + 1
  | _ => 0

def draws : Instruction → Bool
  | .clear | .draw _ _ _ => true
  | _ => false

end Instruction

namespace Machine

variable {m m' : Machine} {i : Instruction}

/-! ### What instructions touch -/

def nextNoise (m : Machine) : Instruction → Noise
  | .random _ _ => m.noise.next.2
  | _ => m.noise

/-- A machine is what another may become by an instruction, as far as memory, the registers, the
display and the random source go. -/
structure Touches (m : Machine) (i : Instruction) (m' : Machine) : Prop where
  memory : ∀ c : Fin 4096, (∀ k < i.cellsStored, c ≠ Memory.cell (m.index + k)) →
    m'.memory.get c = m.memory.get c
  registers : ∀ r, ¬ i.Writes r → m'.registers.get r = m.registers.get r
  display : i.draws = false → m'.display = m.display
  noise : m'.noise = m.nextNoise i

theorem get_setRegister_of_ne {x r : Register} (other : r ≠ x) (value : Int) :
    (m.setRegister x value).registers.get r = m.registers.get r := by
  change (m.registers.set x.val (value % 256))[r.val] = m.registers[r.val]
  refine Vector.getElem_set_ne _ _ ?_
  intro same
  exact other (Fin.ext same.symm)

theorem get_setFlagged_of_ne {x r : Register} (other : ¬ (r = x ∨ r = 0xF)) (value : Int)
    (flag : Bool) : (m.setFlagged x value flag).registers.get r = m.registers.get r := by
  rw [not_or] at other
  rw [setFlagged, get_setRegister_of_ne other.2, get_setRegister_of_ne other.1]

theorem get_loadedRegisters_of_gt {x r : Register} (beyond : ¬ r ≤ x) :
    (m.loadedRegisters x).get r = m.registers.get r := by
  rw [get_loadedRegisters, if_neg beyond]

/-- A store changes no cells but those that it writes. -/
theorem storeNumbers_memory {values : List Int} {address : Int} {c : Fin 4096}
    (stored : m.storeNumbers address values = .ok m')
    (spared : ∀ k < values.length, c ≠ Memory.cell (address + k)) :
    m'.memory.get c = m.memory.get c := by
  rw [storeNumbers_ok stored]
  apply Memory.get_store_of_spared
  rwa [List.length_map]

/-- What an instruction leaves that touches none of these parts. -/
theorem Touches.of_spared (memory : m'.memory = m.memory) (registers : m'.registers = m.registers)
    (display : m'.display = m.display) (noise : m'.noise = m.nextNoise i) : m.Touches i m' where
  memory _ _ := by rw [memory]
  registers _ _ := by rw [registers]
  display _ := display
  noise := noise

/-- What an instruction leaves that touches nothing but registers. -/
theorem Touches.of_registers (memory : m'.memory = m.memory) (display : m'.display = m.display)
    (noise : m'.noise = m.nextNoise i)
    (registers : ∀ r, ¬ i.Writes r → m'.registers.get r = m.registers.get r) :
    m.Touches i m' where
  memory _ _ := by rw [memory]
  registers := registers
  display _ := display
  noise := noise

theorem nextRedraw_eq (m : Machine) (i : Instruction) :
    m.nextRedraw i = (i.draws || m.redraw) := by
  cases i <;> rfl

theorem execute_touches (done : m.execute i = .ok m') : m.Touches i m' := by
  cases i with
  | ret =>
      rw [execute_ret_ok done]
      exact .of_spared rfl rfl rfl rfl
  | call target =>
      rw [(execute_call_ok done).2]
      exact .of_spared rfl rfl rfl rfl
  | clear =>
      cases done
      constructor
      case display => intro draws; cases draws
      all_goals intros; rfl
  | draw x y rows =>
      cases done
      constructor
      case registers =>
        intro r spared
        exact get_setRegister_of_ne spared _
      case display => intro draws; cases draws
      all_goals intros; rfl
  | awaitKey x =>
      rcases execute_awaitKey_ok done with ⟨-, rfl⟩ | ⟨key, rest, -, rfl⟩
      · exact .of_spared rfl rfl rfl rfl
      · refine .of_registers rfl rfl rfl ?_
        intro r spared
        exact get_setRegister_of_ne (m := m.next) spared _
  | storeDecimal x =>
      have frame := storeNumbers_frame done
      constructor
      case memory =>
        intro c spared
        exact storeNumbers_memory (m := m.next) done spared
      all_goals
        intros
        rw [frame]
        rfl
  | storeRegisters x =>
      have frame := execute_storeRegisters_ok done
      constructor
      case memory =>
        intro c spared
        obtain ⟨after, stored, rfl⟩ := stored_of_storeRegisters done
        change after.memory.get c = m.next.memory.get c
        refine storeNumbers_memory stored ?_
        intro k within
        rw [List.length_take] at within
        exact spared k (Nat.lt_of_lt_of_le within (Nat.min_le_left _ _))
      all_goals
        intros
        rw [frame]
        rfl
  | loadRegisters x =>
      cases done
      refine .of_registers rfl rfl rfl ?_
      intro r spared
      exact get_loadedRegisters_of_gt spared
  | add x y | subtract x y | subtractFrom x y | shiftLeft x y | shiftRight x y =>
      cases done
      refine .of_registers rfl rfl rfl ?_
      intro r spared
      exact get_setFlagged_of_ne (m := m.next) spared _ _
  | loadByte x operand | addByte x operand | random x operand | copy x operand | or x operand
  | and x operand | xor x operand =>
      cases done
      refine .of_registers rfl rfl rfl ?_
      intro r spared
      exact get_setRegister_of_ne (m := m.next) spared _
  | readDelay x =>
      cases done
      refine .of_registers rfl rfl rfl ?_
      intro r spared
      exact get_setRegister_of_ne (m := m.next) spared _
  | _ =>
      cases done
      exact .of_spared rfl rfl rfl rfl

end Machine

namespace Opcode

variable {o : Opcode} {i : Instruction} {m : Machine}

/-! ### What words may touch -/

/-- The registers that a word may write. -/
inductive MayWrite (o : Opcode) (r : Register) : Prop where
  | loaded (family : o.family ∈ [0x6, 0x7, 0xC]) (target : r = o.x)
  | combined (family : o.family = 0x8) (last : o.n ∈ [0x0, 0x1, 0x2, 0x3]) (target : r = o.x)
  | flagged (family : o.family = 0x8) (last : o.n ∈ [0x4, 0x5, 0x6, 0x7, 0xE])
      (target : r = o.x ∨ r = 0xF)
  | collision (family : o.family = 0xD) (target : r = 0xF)
  | received (family : o.family = 0xF) (tail : o.nn ∈ [0x07, 0x0A]) (target : r = o.x)
  | block (family : o.family = 0xF) (tail : o.nn = 0x65) (target : r ≤ o.x)

namespace Means

theorem mayWrite {r : Register} (means : o.Means i) (writes : i.Writes r) : o.MayWrite r := by
  cases i with
  | loadByte x byte | addByte x byte | random x byte =>
      obtain ⟨family, rfl, -⟩ := means
      exact .loaded (by simp [family]) writes
  | copy x y | or x y | and x y | xor x y =>
      obtain ⟨family, last, rfl, -⟩ := means
      exact .combined family (by simp [last]) writes
  | add x y | subtract x y | subtractFrom x y | shiftRight x y | shiftLeft x y =>
      obtain ⟨family, last, rfl, -⟩ := means
      exact .flagged family (by simp [last]) writes
  | draw x y rows => exact .collision means.1 writes
  | readDelay x | awaitKey x =>
      obtain ⟨family, tail, rfl⟩ := means
      exact .received family (by simp [tail]) writes
  | loadRegisters x =>
      obtain ⟨family, tail, rfl⟩ := means
      exact .block family tail writes
  | _ => cases writes

theorem of_cellsStored {k : Nat} (means : o.Means i) (stored : k < i.cellsStored) :
    o.family = 0xF ∧ (o.nn = 0x33 ∧ k ≤ 2 ∨ o.nn = 0x55 ∧ k ≤ o.x.val) := by
  cases i with
  | storeDecimal x =>
      obtain ⟨family, tail, -⟩ := means
      exact ⟨family, .inl ⟨tail, Nat.le_of_lt_succ stored⟩⟩
  | storeRegisters x =>
      obtain ⟨family, tail, rfl⟩ := means
      exact ⟨family, .inr ⟨tail, Nat.le_of_lt_succ stored⟩⟩
  | _ => exact absurd stored (Nat.not_lt_zero k)

theorem of_draws (means : o.Means i) (draws : i.draws = true) : o.word = 0xE0 ∨ o.family = 0xD := by
  cases i with
  | clear => exact .inl means.2
  | draw x y rows => exact .inr means.1
  | _ => cases draws

theorem of_nextStack (means : o.Means i) (changed : m.nextStack i ≠ m.stack) :
    o.family = 0x2 ∨ o.word = 0xEE := by
  cases i with
  | ret => exact .inr means.2
  | call target => exact .inl means.1
  | _ => exact absurd rfl changed

theorem of_nextDelay (means : o.Means i) (changed : m.nextDelay i ≠ m.delay) :
    o.family = 0xF ∧ o.nn = 0x15 := by
  cases i with
  | setDelay x => exact ⟨means.1, means.2.1⟩
  | _ => exact absurd rfl changed

theorem of_nextSound (means : o.Means i) (changed : m.nextSound i ≠ m.sound) :
    o.family = 0xF ∧ o.nn = 0x18 := by
  cases i with
  | setSound x => exact ⟨means.1, means.2.1⟩
  | _ => exact absurd rfl changed

theorem of_nextIndex (means : o.Means i) (changed : m.nextIndex i ≠ m.index) :
    o.family = 0xA ∨ o.family = 0xF ∧ o.nn ∈ [0x1E, 0x29] ∨
      o.family = 0xF ∧ o.nn ∈ [0x55, 0x65] ∧ m.mode.legacyStore = true := by
  cases i with
  | loadIndex target => exact .inl means.1
  | addIndex x | loadGlyph x =>
      obtain ⟨family, tail, -⟩ := means
      exact .inr (.inl ⟨family, by simp [tail]⟩)
  | storeRegisters x | loadRegisters x =>
      obtain ⟨family, tail, -⟩ := means
      by_cases legacy : m.mode.legacyStore = true
      · exact .inr (.inr ⟨family, by simp [tail], legacy⟩)
      · exact absurd (if_neg legacy) changed
  | _ => exact absurd rfl changed

theorem nextNoise (means : o.Means i) :
    m.nextNoise i = if o.family = 0xC then m.noise.next.2 else m.noise := by
  cases i with
  | random x mask => exact (if_pos means.1).symm
  | unknown word =>
      obtain ⟨⟨family, -⟩ | ⟨family, -⟩ | ⟨family, -⟩ | ⟨family, -⟩, -⟩ := means
      all_goals
        rw [family]
        rfl
  | _ =>
      rw [means.1]
      rfl

end Means

end Opcode

namespace Machine

variable {m m' : Machine} {i : Instruction}

/-- The footprint of a word: a machine becomes another, and each part in which the two differ is one
that the word is for. -/
structure Footprint (m : Machine) (o : Opcode) (m' : Machine) : Prop where
  memory : ∀ c : Fin 4096, m'.memory.get c ≠ m.memory.get c →
    ∃ k : Nat, c = Memory.cell (m.index + k) ∧
      o.family = 0xF ∧ (o.nn = 0x33 ∧ k ≤ 2 ∨ o.nn = 0x55 ∧ k ≤ o.x.val)
  registers : ∀ r, m'.registers.get r ≠ m.registers.get r → o.MayWrite r
  index : m'.index ≠ m.index →
    o.family = 0xA ∨ o.family = 0xF ∧ o.nn ∈ [0x1E, 0x29] ∨
      o.family = 0xF ∧ o.nn ∈ [0x55, 0x65] ∧ m.mode.legacyStore = true
  stack : m'.stack ≠ m.stack → o.family = 0x2 ∨ o.word = 0xEE
  delay : m'.delay ≠ m.delay → o.family = 0xF ∧ o.nn = 0x15
  sound : m'.sound ≠ m.sound → o.family = 0xF ∧ o.nn = 0x18
  display : m'.display ≠ m.display → o.word = 0xE0 ∨ o.family = 0xD
  redraw : m'.redraw ≠ m.redraw → o.word = 0xE0 ∨ o.family = 0xD
  skipped : m'.skipped ≠ m.skipped → o.family = 0x5 ∧ o.n ≠ 0x0 ∧ m.mode.strict = false
  noise : m'.noise = if o.family = 0xC then m.noise.next.2 else m.noise
  mode : m'.mode = m.mode
  keypad : m'.keypad = m.keypad
  paused : m'.paused = m.paused

theorem Footprint.of_done {o : Opcode} (means : o.Means i) (done : m.execute i = .ok m') :
    m.Footprint o m' := by
  have follows := execute_follows done
  have touches := execute_touches done
  constructor
  case memory =>
    intro c changed
    by_cases stored : ∃ k < i.cellsStored, c = Memory.cell (m.index + k)
    · obtain ⟨k, within, here⟩ := stored
      exact ⟨k, here, means.of_cellsStored within⟩
    · refine absurd (touches.memory c ?_) changed
      intro k within here
      exact stored ⟨k, within, here⟩
  case registers =>
    intro r changed
    by_cases writes : i.Writes r
    · exact means.mayWrite writes
    · exact absurd (touches.registers r writes) changed
  case display =>
    intro changed
    cases draws : i.draws with
    | true => exact means.of_draws draws
    | false => exact absurd (touches.display draws) changed
  case redraw =>
    intro changed
    cases draws : i.draws with
    | true => exact means.of_draws draws
    | false =>
        rw [execute_redraw done, nextRedraw_eq, draws] at changed
        exact absurd rfl changed
  case index =>
    rw [follows.index]
    exact means.of_nextIndex
  case stack =>
    rw [follows.stack]
    exact means.of_nextStack
  case delay =>
    rw [follows.delay]
    exact means.of_nextDelay
  case sound =>
    rw [follows.sound]
    exact means.of_nextSound
  case skipped => exact fun changed => absurd follows.skipped changed
  case noise => rw [touches.noise, means.nextNoise]
  case mode => exact follows.mode
  case keypad => exact follows.keypad
  case paused => exact follows.paused

/-- A malformed word that is skipped. -/
theorem Footprint.of_skipped {o : Opcode} (family : o.family = 0x5) (last : o.n ≠ 0x0)
    (lenient : m.mode.strict = false) (count : Int) :
    m.Footprint o { m.next with skipped := count } := by
  constructor
  case skipped => exact fun _ => ⟨family, last, lenient⟩
  case noise =>
    rw [family]
    rfl
  case memory => exact fun _ changed => absurd rfl changed
  case registers => exact fun _ changed => absurd rfl changed
  case mode | keypad | paused => rfl
  all_goals exact fun changed => absurd rfl changed

/-- A step that succeeds changes only what its word is for: memory at most in the three cells of a
number's digits or in the cells of a block of registers, around the end of memory if need be; the
display and the request for a picture by drawing and clearing; the stack by calls and returns; each
timer by its own instruction; the index register by the three instructions that set it, and by block
transfers in the mode that moves it; registers as `Opcode.MayWrite` has it; the count of skipped
words at a malformed word of a lenient machine. A word of family C draws one byte from the random
source, whatever its mask, and no other word draws any. The mode, the keypad and the pause never
change. -/
theorem step_footprint (done : m.step.value = .ok (i, m')) :
    m.Footprint (Opcode.ofWord m.word) m' := by
  rcases step_ok done with ⟨-, ⟨known, done⟩ | ⟨⟨f, malformed⟩, lenient, -, rfl⟩⟩
  · have means := Instruction.ofOpcode?_eq_some_iff.mp (Instruction.identify_eq_ok_iff.mp known)
    exact .of_done means done
  · obtain ⟨family, last⟩ := Instruction.digits_of_malformed malformed
    exact .of_skipped family last lenient _

def storing : Machine :=
  { fresh { legacyStore := true } .silent with
    memory := initialMemory.store origin [0xF2, 0x55]
    registers := Vector.ofFn fun r => r.val + 7
    index := 4095 }

def afterStoring : Machine :=
  { storing.next with memory := storing.memory.store 4095 [7, 8, 9], index := 4098 }

theorem storing_touches_block :
    storing.step.value = .ok (.storeRegisters 2, afterStoring) ∧
      storing.Footprint (.ofWord 0xF255) afterStoring ∧
      [0, 1, 4095].map afterStoring.memory.read = [8, 9, 7] := by
  have word : storing.word = 0xF255 := by decide +kernel
  have known : Instruction.identify storing.word storing.pc = .ok (.storeRegisters 2) := by
    rw [word]
    rfl
  have block : storing.next.storeNumbers 4095 [7, 8, 9] =
      .ok { storing.next with memory := storing.memory.store 4095 [7, 8, 9] } :=
    storeNumbers_bytes (by decide) 4095
  have done : storing.execute (.storeRegisters 2) = .ok afterStoring := by
    change storing.next.storeNumbers 4095 [7, 8, 9] >>= _ = _
    rw [block]
    rfl
  have step : storing.step.value = .ok (.storeRegisters 2, afterStoring) := by
    rw [step_of_instruction (by decide) known, done]
    rfl
  have footprint := step_footprint step
  rw [word] at footprint
  exact ⟨step, footprint, by decide +kernel⟩

end Machine

end Chip8
