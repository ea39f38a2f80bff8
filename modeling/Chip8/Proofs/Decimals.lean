import Chip8.Proofs.Transfers

/-!
The decimal digits of a register. The word FX33 stores the hundreds, the tens and the ones of VX
from the index register on (`Machine.Encodes`): each of the three is a digit, and together they are
the number. Loading three registers there gives it back (`Machine.decimals_encode_register`).
-/

namespace Chip8.Machine

open Opcode (transfer)

variable {m written later after : Machine} {x : Register}

/-! ### Storing digits -/

/-- What a machine is that has stored the digits of a register: from the place of the index register
on there are three digits in memory that make the number of the register, and no other cell, no
register and not the index register has changed. -/
structure Encodes (m : Machine) (x : Register) (after : Machine) : Prop where
  digits : ∀ j : Nat, j < 3 → (after.memory.read (m.index + j)).toNat ≤ 9
  value :
    100 * (after.memory.read m.index).toNat + 10 * (after.memory.read (m.index + 1)).toNat +
      (after.memory.read (m.index + 2)).toNat = m.registers.get x
  others : ∀ c, (∀ j : Nat, j < 3 → c ≠ Memory.cell (m.index + j)) →
    after.memory.get c = m.memory.get c
  registers : after.registers = m.registers
  index : after.index = m.index

def afterDecimal (m : Machine) (x : Register) : Machine :=
  { m.next with
    memory := m.memory.store m.index ((decimalDigits (m.registers.get x)).map lowByte) }

theorem execute_storeDecimal (bytes : m.HoldsBytes) (x : Register) :
    m.execute (.storeDecimal x) = .ok (m.afterDecimal x) :=
  storeNumbers_bytes (decimalDigits_bytes (bytes x)) m.index

theorem afterDecimal_effect (bytes : m.HoldsBytes) (x : Register) :
    m.HasEffect (transfer x 0x33) (m.afterDecimal x) := by
  obtain ⟨family, first, tail⟩ := Opcode.ofWord_transfer x 0x33
  exact .of_execute (.storeDecimal x) ⟨family, tail, first.symm⟩ (execute_storeDecimal bytes x)

/-- The three addresses name different cells, so each digit is found at its own. -/
theorem afterDecimal_digit (bytes : m.HoldsBytes) {j : Nat}
    (within : j < (decimalDigits (m.registers.get x)).length) :
    (((m.afterDecimal x).memory.read (m.index + j)).toNat : Int) =
      (decimalDigits (m.registers.get x))[j] := by
  have inside : j < ((decimalDigits (m.registers.get x)).map lowByte).length := by
    rwa [List.length_map]
  rw [afterDecimal, m.memory.read_store (by simp [decimalDigits]) inside, List.getElem_map]
  exact toNat_lowByte (decimalDigits_bytes (bytes x) _ (List.getElem_mem within))

theorem afterDecimal_encodes (bytes : m.HoldsBytes) (x : Register) :
    m.Encodes x (m.afterDecimal x) where
  digits j within := by
    have inside : j < (decimalDigits (m.registers.get x)).length := within
    have digit := decimalDigits_digits (bytes x) _ (List.getElem_mem inside)
    have found := afterDecimal_digit bytes inside
    omega
  value := by
    have hundreds : (((m.afterDecimal x).memory.read (m.index + 0)).toNat : Int) =
        m.registers.get x / 100 := afterDecimal_digit bytes (by simp [decimalDigits])
    have tens : (((m.afterDecimal x).memory.read (m.index + 1)).toNat : Int) =
        m.registers.get x / 10 % 10 := afterDecimal_digit bytes (by simp [decimalDigits])
    have ones : (((m.afterDecimal x).memory.read (m.index + 2)).toNat : Int) =
        m.registers.get x % 10 := afterDecimal_digit bytes (by simp [decimalDigits])
    rw [Int.add_zero] at hundreds
    omega
  others _ spared := m.memory.get_store_of_spared spared
  registers := rfl
  index := rfl

/-! ### Loading digits -/

/-- Loading three registers from cells that hold the digits of a register gives the digits back. -/
theorem Encodes.loaded (encodes : m.Encodes x written) (back : later.index = m.index)
    (kept : ∀ j : Nat, j < 3 → later.memory.read (m.index + j) = written.memory.read (m.index + j))
    (loads : later.Loads 2 after) :
    100 * after.registers.get 0 + 10 * after.registers.get 1 + after.registers.get 2 =
      m.registers.get x := by
  have found : ∀ r : Register, r ≤ 2 →
      after.registers.get r = (written.memory.read (m.index + r.val)).toNat := by
    intro r within
    rw [loads.block r within, back, kept r.val (Nat.lt_succ_of_le within)]
  have hundreds := found 0 (Fin.zero_le 2)
  have tens := found 1 (Nat.le_succ 1)
  have ones := found 2 (Nat.le_refl 2)
  rw [Fin.val_zero, Int.natCast_zero, Int.add_zero] at hundreds
  rw [hundreds, tens, ones, ← encodes.value]
  rfl

/-- The word FX33 encodes a register in decimal. While the registers hold bytes it succeeds: the
three numbers that it writes are digits, so none of them is refused, and it changes nothing else of
memory and the registers. Let any machine follow, in either mode, whose index register is where it
was and whose memory still holds the three cells: F265 gives there three registers whose digits make
the number that was in VX. -/
theorem decimals_encode_register (bytes : m.HoldsBytes) (x : Register) :
    ∃ written, m.HasEffect (transfer x 0x33) written ∧ m.Encodes x written ∧
      ∀ later : Machine, later.index = m.index →
        (∀ j : Nat, j < 3 → later.memory.read (m.index + j) = written.memory.read (m.index + j)) →
        ∃ loaded, later.HasEffect (transfer 2 0x65) loaded ∧
          100 * loaded.registers.get 0 + 10 * loaded.registers.get 1 + loaded.registers.get 2 =
            m.registers.get x := by
  have encodes := afterDecimal_encodes bytes x
  refine ⟨m.afterDecimal x, afterDecimal_effect bytes x, encodes, ?_⟩
  intro later back kept
  exact ⟨later.afterLoad 2, later.afterLoad_effect 2,
    encodes.loaded back kept (later.afterLoad_loads 2)⟩

def scoring : Machine :=
  { fresh {} .silent with
    registers := Vector.replicate 16 254
    index := 4094 }

theorem scoring_comes_back :
    scoring.HoldsBytes ∧ ∃ written, scoring.HasEffect (transfer 5 0x33) written ∧
      (written.memory.read 0).toNat = 4 ∧
      ∃ loaded,
        { written with mode := { legacyStore := true } }.HasEffect (transfer 2 0x65) loaded ∧
        100 * loaded.registers.get 0 + 10 * loaded.registers.get 1 + loaded.registers.get 2 =
          254 := by
  have bytes : scoring.HoldsBytes := by
    unfold HoldsBytes
    decide
  obtain ⟨written, effect, encodes, back⟩ := decimals_encode_register bytes 5
  -- three digits that make 254 can only end in 4
  have ones : (written.memory.read 4096).toNat = 4 := by
    have second : (written.memory.read 4095).toNat ≤ 9 := encodes.digits 1 (by omega)
    have third : (written.memory.read 4096).toNat ≤ 9 := encodes.digits 2 (by omega)
    have value : 100 * ((written.memory.read 4094).toNat : Int) +
        10 * (written.memory.read 4095).toNat + (written.memory.read 4096).toNat = 254 :=
      encodes.value
    omega
  rw [written.memory.read_congr (show (4096 : Int) % 4096 = 0 % 4096 by rfl)] at ones
  obtain ⟨loaded, effect', value⟩ := back
    { written with mode := { legacyStore := true } } encodes.index fun _ _ => rfl
  exact ⟨bytes, written, effect, ones, loaded, effect', value⟩

end Chip8.Machine
