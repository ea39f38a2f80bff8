import Chip8.Memory

/-!
Laws of memory. Addresses are counted around its end, so a read or a write hangs on its address
modulo the size of memory alone (`Memory.read_congr`, `Memory.store_congr`). A block that is stored
is found at its addresses again if it is no longer than memory (`Memory.read_store`,
`Memory.load_store`), and every other cell is left alone (`Memory.get_store_of_spared`). Two blocks
that are stored one behind the other are one block (`Memory.store_append`), and of the list of all
cells a block within memory replaces as many as it is long (`Memory.toList_store`).
-/

namespace Chip8.Memory

variable {a b address : Int} {c : Fin 4096} {values : List Byte}

/-! ### Addresses -/

/-- Addresses name one cell exactly if they are congruent modulo the size of memory. -/
theorem cell_eq_iff : cell a = cell b ↔ a % 4096 = b % 4096 := by
  rw [Fin.ext_iff]
  simp only [cell]
  omega

theorem read_congr (memory : Memory) (same : a % 4096 = b % 4096) :
    memory.read a = memory.read b := by
  simp only [read, cell_eq_iff.mpr same]

theorem write_congr (memory : Memory) (same : a % 4096 = b % 4096) (value : Byte) :
    memory.write a value = memory.write b value := by
  simp only [write, cell_eq_iff.mpr same]

theorem load_congr (memory : Memory) (same : a % 4096 = b % 4096) (count : Nat) :
    memory.load a count = memory.load b count := by
  unfold load
  refine List.map_congr_left fun offset _ => ?_
  exact memory.read_congr (by omega)

theorem store_congr (memory : Memory) (same : a % 4096 = b % 4096) (values : List Byte) :
    memory.store a values = memory.store b values := by
  induction values generalizing memory a b with
  | nil => rfl
  | cons value rest ih =>
      rw [store, store, memory.write_congr same]
      exact ih _ (by omega)

/-! ### Single bytes -/

theorem read_write_self (memory : Memory) (address : Int) (value : Byte) :
    (memory.write address value).read address = value :=
  Vector.getElem_set_self _

theorem get_write_of_ne {address : Int} {c : Fin 4096} (other : c ≠ cell address)
    (memory : Memory) (value : Byte) : (memory.write address value).get c = memory.get c := by
  refine Vector.getElem_set_ne (cell address).isLt c.isLt ?_
  intro same
  exact other (Fin.ext same.symm)

/-! ### Blocks that are stored -/

/-- Blocks that are stored one behind the other are one block. -/
theorem store_append (memory : Memory) (address : Int) (first second : List Byte) :
    memory.store address (first ++ second) =
      (memory.store address first).store (address + first.length) second := by
  induction first generalizing memory address with
  | nil => simp [store]
  | cons value rest ih =>
      rw [List.cons_append, store, store, ih, List.length_cons]
      congr 1
      omega

/-- A block changes no cells but those at its addresses. -/
theorem get_store_of_spared (memory : Memory)
    (spared : ∀ k < values.length, c ≠ cell (address + k)) :
    (memory.store address values).get c = memory.get c := by
  induction values generalizing memory address with
  | nil => rfl
  | cons value rest ih =>
      have first : c ≠ cell address := by
        simpa using spared 0 (Nat.succ_pos _)
      have later : ∀ k < rest.length, c ≠ cell (address + 1 + k) := by
        intro k within
        have next := spared (k + 1) (Nat.succ_lt_succ within)
        rwa [show address + ((k + 1 : Nat) : Int) = address + 1 + k by omega] at next
      rw [store, ih _ later]
      exact get_write_of_ne first memory value

/-- A block that is no longer than memory is found at its addresses: no two of them name one
cell. -/
theorem read_store (memory : Memory) (short : values.length ≤ 4096) {j : Nat}
    (within : j < values.length) :
    (memory.store address values).read (address + j) = values[j] := by
  induction values generalizing memory address j with
  | nil => cases within
  | cons value rest ih =>
      rw [List.length_cons] at short within
      cases j with
      | zero =>
          -- the rest ends before it comes around to the first byte
          have spared : ∀ k < rest.length, cell address ≠ cell (address + 1 + k) := by
            intro k inside same
            have congruent := cell_eq_iff.mp same
            omega
          rw [store, Int.natCast_zero, Int.add_zero]
          exact (get_store_of_spared _ spared).trans (read_write_self memory address value)
      | succ j =>
          have place : address + ((j + 1 : Nat) : Int) = address + 1 + j := by omega
          rw [store, place]
          exact ih _ (by omega) (Nat.lt_of_succ_lt_succ within)

/-- A byte at an address within memory is one cell of the list of all. -/
theorem toList_write (memory : Memory) {start : Nat} (within : start < 4096) (value : Byte) :
    (memory.write start value).toList = memory.toList.set start value := by
  have place : (cell start).val = start := by
    simp only [cell]
    omega
  change (memory.set (cell start).val value _).toList = _
  rw [Vector.toList_set, place]

/-- A block that ends within memory replaces as many cells and no more, so memory is as long as it
was. -/
theorem toList_store (memory : Memory) {start : Nat} (ends : start + values.length ≤ 4096) :
    (memory.store start values).toList =
      memory.toList.take start ++ values ++ memory.toList.drop (start + values.length) := by
  induction values generalizing memory start with
  | nil => simp [store]
  | cons value rest ih =>
      rw [List.length_cons] at ends
      have within : start < memory.toList.length := by
        rw [Vector.length_toList]
        omega
      have next : (start : Int) + 1 = (start + 1 : Nat) := rfl
      rw [store, next, ih _ (by omega), toList_write _ (by omega)]
      have first : (memory.toList.set start value).take (start + 1) =
          memory.toList.take start ++ [value] := by
        rw [List.take_add_one, List.take_set_of_le (Nat.le_refl start),
          List.getElem?_set_self within]
        rfl
      have behind : (memory.toList.set start value).drop (start + 1 + rest.length) =
          memory.toList.drop (start + (rest.length + 1)) := by
        rw [List.drop_set_of_lt (by omega)]
        congr 1
        omega
      rw [first, behind, List.length_cons, List.append_assoc _ [value]]
      rfl

/-- Two bytes that are stored are the word at their address. -/
theorem word_store (memory : Memory) (address : Int) (high low : Byte) :
    (memory.store address [high, low]).word address = high.toNat * 256 + low.toNat := by
  have other : cell address ≠ cell (address + 1) := by
    intro same
    have congruent := cell_eq_iff.mp same
    omega
  have first : (memory.store address [high, low]).read address = high :=
    (get_write_of_ne other _ low).trans (read_write_self memory address high)
  have second : (memory.store address [high, low]).read (address + 1) = low :=
    read_write_self _ (address + 1) low
  rw [word, first, second]

/-! ### Blocks that are loaded -/

theorem length_load (memory : Memory) (address : Int) (count : Nat) :
    (memory.load address count).length = count := by
  simp only [load, List.length_map, List.length_range]

theorem getElem_load (memory : Memory) (address : Int) {count j : Nat}
    (within : j < (memory.load address count).length) :
    (memory.load address count)[j] = memory.read (address + j) := by
  simp only [load, List.getElem_map, List.getElem_range]

theorem getElem?_load {memory : Memory} {count j : Nat} {byte : Byte} :
    (memory.load address count)[j]? = some byte ↔
      j < count ∧ byte = memory.read (address + j) := by
  simp only [List.getElem?_eq_some_iff, length_load, getElem_load]
  constructor
  · rintro ⟨within, rfl⟩
    exact ⟨within, rfl⟩
  · rintro ⟨within, rfl⟩
    exact ⟨within, rfl⟩

/-- A block is its first part and the block behind that. -/
theorem load_add (memory : Memory) (address : Int) (first second : Nat) :
    memory.load address (first + second) =
      memory.load address first ++ memory.load (address + first) second := by
  simp only [load, List.range_add, List.map_append, List.map_map]
  congr 1
  refine List.map_congr_left fun offset _ => ?_
  simp only [Function.comp_apply, Int.natCast_add, Int.add_assoc]

/-- Memories that agree on the cells of a block hold the same block. -/
theorem load_eq_of_read {memory memory' : Memory} {count : Nat}
    (same : ∀ j < count, memory.read (address + j) = memory'.read (address + j)) :
    memory.load address count = memory'.load address count := by
  refine List.map_congr_left fun offset mem => ?_
  exact same offset (List.mem_range.mp mem)

/-- What is stored is loaded again, if it is no longer than memory. -/
theorem load_store (memory : Memory) (short : values.length ≤ 4096) :
    (memory.store address values).load address values.length = values := by
  apply List.ext_getElem
  · exact length_load _ _ _
  · intro j inside within
    rw [getElem_load]
    exact memory.read_store short within

end Chip8.Memory
