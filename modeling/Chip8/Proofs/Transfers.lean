import Chip8.Proofs.Stepping
import Chip8.Proofs.Storage

/-!
Transfers of registers to memory and back. The effect of a word on a machine (`Machine.effect`) is
that of the instruction which it stands for, and a step at the word comes to the same. The word
FX55 stores the registers up to VX from the index register on (`Machine.Stores`), and FX65 loads
them from there (`Machine.Loads`); both count addresses around the end of memory. The cells of a
block are all different, so what was stored is what is loaded, as long as the index register names
the same cell and the cells were left alone (`Machine.transfers_are_exact`).
-/

namespace Chip8

namespace Opcode

/-- The word of family F that names a register and ends in a byte. -/
def transfer (x : Register) (tail : Byte) : Int :=
  0xF000 + 0x100 * x.val + tail.toNat

theorem ofWord_transfer (x : Register) (tail : Byte) :
    (ofWord (transfer x tail)).family = 0xF ∧ (ofWord (transfer x tail)).x = x ∧
      (ofWord (transfer x tail)).nn = tail :=
  ofWord_tail 0xF rfl

end Opcode

namespace Machine

open Opcode (transfer)

variable {m after : Machine} {word : Int} {x : Register}

/-! ### The effect of a word -/

/-- The effect of a word on a machine, which need not stand at the word. -/
def effect (m : Machine) (word : Int) : Except Interruption Machine :=
  match Instruction.identify word m.pc with
  | .ok i => m.execute i
  | .error f => .error (.refusal m f)

/-- A word takes a machine to another: this is the effect of the word, and if the machine stands at
the word, of its next step. -/
structure HasEffect (m : Machine) (word : Int) (after : Machine) : Prop where
  effect : m.effect word = .ok after
  step : m.AtWord → m.word = word → ∃ i, m.step.value = .ok (i, after)

theorem HasEffect.of_execute (i : Instruction) (means : (Opcode.ofWord word).Means i)
    (done : m.execute i = .ok after) : m.HasEffect word after where
  effect := by
    rw [Machine.effect, Instruction.identify_eq_ok_iff_means.mpr means]
    exact done
  step := by
    rintro inside rfl
    exact ⟨i, step_of_done inside (Instruction.identify_eq_ok_iff_means.mpr means) done⟩

/-! ### Storing registers -/

/-- What a machine is that has stored its registers up to `x`: they are found in memory from the
place of the index register on, no other cell and no register has changed, and the index register
has moved behind the block if the mode has it so. -/
structure Stores (m : Machine) (x : Register) (after : Machine) : Prop where
  block : ∀ r ≤ x, ((after.memory.read (m.index + r.val)).toNat : Int) = m.registers.get r
  others : ∀ c, (∀ r ≤ x, c ≠ Memory.cell (m.index + r.val)) →
    after.memory.get c = m.memory.get c
  registers : after.registers = m.registers
  index : after.index = if m.mode.legacyStore then (m.index + x.val + 1) % 65536 else m.index

def block (m : Machine) (x : Register) : List Byte :=
  (m.registers.toList.take (x.val + 1)).map lowByte

def afterStore (m : Machine) (x : Register) : Machine :=
  { m.next with memory := m.memory.store m.index (m.block x), index := m.indexAfter x }

theorem length_block (m : Machine) (x : Register) : (m.block x).length = x.val + 1 := by
  simp only [block, List.length_map, List.length_take, Vector.length_toList]
  omega

theorem getElem_block (m : Machine) {r : Register} (within : r.val < (m.block x).length) :
    (m.block x)[r.val] = lowByte (m.registers.get r) := by
  simp only [block, List.getElem_map, List.getElem_take, Vector.getElem_toList]
  rfl

theorem execute_storeRegisters (bytes : m.HoldsBytes) (x : Register) :
    m.execute (.storeRegisters x) = .ok (m.afterStore x) := by
  have stored := storeNumbers_bytes (m := m.next) (bytes.take (x.val + 1)) m.index
  simp only [execute, stored]
  rfl

theorem afterStore_effect (bytes : m.HoldsBytes) (x : Register) :
    m.HasEffect (transfer x 0x55) (m.afterStore x) := by
  obtain ⟨family, first, tail⟩ := Opcode.ofWord_transfer x 0x55
  exact .of_execute (.storeRegisters x) ⟨family, tail, first.symm⟩ (execute_storeRegisters bytes x)

theorem afterStore_stores (bytes : m.HoldsBytes) (x : Register) : m.Stores x (m.afterStore x) where
  block r within := by
    have inside : r.val < (m.block x).length := by
      rw [length_block]
      exact Nat.lt_succ_of_le within
    have found : (m.afterStore x).memory.read (m.index + r.val) = (m.block x)[r.val] := by
      apply Memory.read_store
      rw [length_block]
      omega
    rw [found, getElem_block, toNat_lowByte (bytes r)]
  others c spared := by
    apply Memory.get_store_of_spared
    intro k within
    rw [length_block] at within
    exact spared ⟨k, by omega⟩ (Nat.le_of_lt_succ within)
  registers := rfl
  index := rfl

/-! ### Loading registers -/

/-- What a machine is that has loaded its registers up to `x`: they hold what is in memory from the
place of the index register on, no other register and no cell has changed, and the index register
has moved behind the block if the mode has it so. -/
structure Loads (m : Machine) (x : Register) (after : Machine) : Prop where
  block : ∀ r ≤ x, after.registers.get r = (m.memory.read (m.index + r.val)).toNat
  others : ∀ r, x < r → after.registers.get r = m.registers.get r
  memory : after.memory = m.memory
  index : after.index = if m.mode.legacyStore then (m.index + x.val + 1) % 65536 else m.index

def afterLoad (m : Machine) (x : Register) : Machine :=
  { m.next with registers := m.loadedRegisters x, index := m.indexAfter x }

theorem afterLoad_effect (m : Machine) (x : Register) :
    m.HasEffect (transfer x 0x65) (m.afterLoad x) := by
  obtain ⟨family, first, tail⟩ := Opcode.ofWord_transfer x 0x65
  exact .of_execute (.loadRegisters x) ⟨family, tail, first.symm⟩ rfl

theorem afterLoad_loads (m : Machine) (x : Register) : m.Loads x (m.afterLoad x) where
  block r within := (m.get_loadedRegisters x r).trans (if_pos within)
  others r beyond := (m.get_loadedRegisters x r).trans (if_neg (Fin.not_le.mpr beyond))
  memory := by simp only [afterLoad, next]
  index := rfl

/-! ### There and back -/

/-- What was stored is loaded again from cells that were left alone. -/
theorem Stores.loaded {stored later : Machine} (stores : m.Stores x stored)
    (back : later.index = m.index)
    (kept : ∀ r ≤ x, later.memory.read (m.index + r.val) = stored.memory.read (m.index + r.val))
    (loads : later.Loads x after) : ∀ r ≤ x, after.registers.get r = m.registers.get r := by
  intro r within
  rw [loads.block r within, back, kept r within]
  exact stores.block r within

/-- Transfers are exact, and one undoes the other. Storing succeeds while the registers hold bytes,
loading always does, and each changes what it is for and nothing else of memory and the registers.
Let registers be stored, and let any machine follow whose index register is back where it was and
whose memory still holds the cells of the block: loading as many registers there gives each of them
what it held when it was stored. -/
theorem transfers_are_exact (bytes : m.HoldsBytes) (x : Register) :
    (∃ stored, m.HasEffect (transfer x 0x55) stored ∧ m.Stores x stored ∧
      ∀ later : Machine, later.index = m.index →
        (∀ r ≤ x, later.memory.read (m.index + r.val) = stored.memory.read (m.index + r.val)) →
        ∃ loaded, later.HasEffect (transfer x 0x65) loaded ∧
          ∀ r ≤ x, loaded.registers.get r = m.registers.get r) ∧
      ∃ loaded, m.HasEffect (transfer x 0x65) loaded ∧ m.Loads x loaded := by
  have stores := afterStore_stores bytes x
  refine ⟨⟨m.afterStore x, afterStore_effect bytes x, stores, ?_⟩,
    m.afterLoad x, m.afterLoad_effect x, m.afterLoad_loads x⟩
  intro later back kept
  exact ⟨later.afterLoad x, later.afterLoad_effect x,
    stores.loaded back kept (later.afterLoad_loads x)⟩

def spilling : Machine :=
  { fresh { legacyStore := true } .silent with
    registers := Vector.ofFn fun r => r.val + 7
    index := 4095 }

theorem spilling_comes_back :
    spilling.HoldsBytes ∧ ∃ stored, spilling.HasEffect (transfer 2 0x55) stored ∧
      (stored.memory.read 1).toNat = 9 ∧ stored.index = 4098 ∧
      ∃ loaded, { stored with registers := Vector.replicate 16 0, index := 4095 }.HasEffect
        (transfer 2 0x65) loaded ∧ loaded.registers.get 2 = 9 := by
  have bytes : spilling.HoldsBytes := by
    unfold HoldsBytes
    decide
  obtain ⟨⟨stored, effect, stores, back⟩, -⟩ := transfers_are_exact bytes 2
  have last : ((stored.memory.read 4097).toNat : Int) = 9 := stores.block 2 (Nat.le_refl 2)
  rw [stored.memory.read_congr (show (4097 : Int) % 4096 = 1 % 4096 by rfl)] at last
  obtain ⟨loaded, effect', same⟩ := back
    { stored with registers := Vector.replicate 16 0, index := 4095 } rfl fun _ _ => rfl
  exact ⟨bytes, stored, effect, Int.ofNat_inj.mp last, stores.index, loaded, effect',
    same 2 (Nat.le_refl 2)⟩

end Machine

end Chip8
