import Chip8.Proofs.Transfers

/-!
Blocks of registers in a row. In the mode in which a transfer moves the index register behind its
block, blocks that are stored one after the other lie one behind the other in memory, and loading as
many registers each time gives them back in order (`Machine.blocks_form_one_stream`). The index
register counts modulo 65536 and the cells of memory modulo 4096: since the second divides the first
there is no gap where either of them starts over.
-/

namespace Chip8

/-- A block of registers: the bytes that the registers hold, and the last register that belongs to
the block. -/
structure Block where
  last : Register
  held : Vector Byte 16

namespace Block

/-- The bytes of a block: those of the first registers up to the last. -/
def bytes (b : Block) : List Byte :=
  b.held.toList.take (b.last.val + 1)

/-- The bytes of a block as the contents of registers. -/
def numbers (b : Block) : List Int :=
  b.bytes.map fun byte => byte.toNat

/-- The bytes of blocks, one behind the other. -/
def stream (blocks : List Block) : List Byte :=
  blocks.flatMap bytes

def total : List Block → Nat
  | [] => 0
  | b :: rest => b.last.val + 1 + total rest

theorem length_bytes (b : Block) : b.bytes.length = b.last.val + 1 := by
  simp only [bytes, List.length_take, Vector.length_toList]
  omega

theorem stream_cons (b : Block) (rest : List Block) : stream (b :: rest) = b.bytes ++ stream rest :=
  List.flatMap_cons

theorem length_stream (blocks : List Block) : (stream blocks).length = total blocks := by
  induction blocks with
  | nil => rfl
  | cons b rest ih => rw [stream_cons, List.length_append, length_bytes, ih, total]

end Block

namespace Machine

open Block (stream)
open Opcode (transfer)

variable {m : Machine}

/-! ### Transfers in a row -/

def holding (m : Machine) (b : Block) : Machine :=
  { m with registers := b.held.map fun byte => (byte.toNat : Int) }

/-- Stores blocks one after the other, each from where the index register has come to. -/
def storeBlocks (m : Machine) : List Block → Except Interruption Machine
  | [] => .ok m
  | b :: rest => do
      let stored ← (m.holding b).effect (transfer b.last 0x55)
      storeBlocks stored rest

/-- Loads blocks one after the other, each from where the index register has come to, and collects
what is then in the registers up to the last of each. -/
def loadBlocks (m : Machine) : List Register → Except Interruption (List (List Int) × Machine)
  | [] => .ok ([], m)
  | x :: rest => do
      let loaded ← m.effect (transfer x 0x65)
      let (blocks, last) ← loadBlocks loaded rest
      return (loaded.registers.toList.take (x.val + 1) :: blocks, last)

/-! ### One block -/

theorem holding_bytes (m : Machine) (b : Block) : (m.holding b).HoldsBytes := by
  intro r
  have byte := (b.held[r.val]).isLt
  have held : (m.holding b).registers.get r = (b.held[r.val]).toNat := Vector.getElem_map _ _
  rw [held]
  omega

theorem block_holding (m : Machine) (b : Block) : (m.holding b).block b.last = b.bytes := by
  have same : lowByte ∘ (fun byte : Byte => (byte.toNat : Int)) = id := by
    funext byte
    simp [lowByte]
  simp only [block, holding, Block.bytes, Vector.toList_map, ← List.map_take, List.map_map, same,
    List.map_id]

/-- The registers of a block hold what was in memory. -/
theorem take_loadedRegisters (m : Machine) (x : Register) :
    (m.loadedRegisters x).toList.take (x.val + 1) =
      (m.memory.load m.index (x.val + 1)).map fun byte => (byte.toNat : Int) := by
  apply List.ext_getElem
  · simp only [List.length_take, Vector.length_toList, List.length_map, Memory.length_load]
    omega
  · intro k inside within
    rw [List.length_map, Memory.length_load] at within
    rw [List.getElem_take, List.getElem_map, Memory.getElem_load, Vector.getElem_toList]
    exact (m.get_loadedRegisters x ⟨k, by omega⟩).trans (if_pos (Nat.le_of_lt_succ within))

/-- The index register moves behind a block that is transferred. -/
theorem indexAfter_of_legacy (legacy : m.mode.legacyStore = true) (b : Block) :
    m.indexAfter b.last = (m.index + b.bytes.length) % 65536 := by
  rw [Block.length_bytes, Int.natCast_succ, ← Int.add_assoc]
  exact if_pos legacy

/-! ### Blocks in a row -/

/-- Blocks that are stored in a row are stored as one block, and the index register stands behind
it. -/
theorem storeBlocks_ok (legacy : m.mode.legacyStore = true)
    (range : 0 ≤ m.index ∧ m.index ≤ 0xFFFF) (blocks : List Block) :
    ∃ stored, m.storeBlocks blocks = .ok stored ∧
      stored.memory = m.memory.store m.index (stream blocks) ∧
      stored.index = (m.index + (stream blocks).length) % 65536 := by
  induction blocks generalizing m with
  | nil =>
      refine ⟨m, rfl, rfl, ?_⟩
      rw [stream, List.flatMap_nil, List.length_nil]
      omega
  | cons b rest ih =>
      have effect := (afterStore_effect (m.holding_bytes b) b.last).effect
      have index : ((m.holding b).afterStore b.last).index =
          (m.index + b.bytes.length) % 65536 := indexAfter_of_legacy legacy b
      have first : ((m.holding b).afterStore b.last).memory = m.memory.store m.index b.bytes := by
        rw [← m.block_holding b]
        rfl
      obtain ⟨stored, done, memory, last⟩ :=
        ih (m := (m.holding b).afterStore b.last) legacy (by omega)
      refine ⟨stored, ?_, ?_, ?_⟩
      · simp only [storeBlocks, effect]
        exact done
      · rw [memory, first, Block.stream_cons, Memory.store_append, index]
        -- the index register has been counted modulo 65536, which names the same cell
        exact Memory.store_congr _ (by omega) _
      · rw [last, index, Block.stream_cons, List.length_append]
        omega

/-- Blocks that lie one behind the other in memory are loaded in a row. They need not have been
stored there in this way. -/
theorem loadBlocks_ok (legacy : m.mode.legacyStore = true)
    (range : 0 ≤ m.index ∧ m.index ≤ 0xFFFF) (blocks : List Block)
    (holds : m.memory.load m.index (stream blocks).length = stream blocks) :
    ∃ loaded, m.loadBlocks (blocks.map Block.last) = .ok (blocks.map Block.numbers, loaded) ∧
      loaded.index = (m.index + (stream blocks).length) % 65536 := by
  induction blocks generalizing m with
  | nil =>
      refine ⟨m, rfl, ?_⟩
      rw [stream, List.flatMap_nil, List.length_nil]
      omega
  | cons b rest ih =>
      have effect := (m.afterLoad_effect b.last).effect
      have index : (m.afterLoad b.last).index = (m.index + b.bytes.length) % 65536 :=
        indexAfter_of_legacy legacy b
      have memory := (m.afterLoad_loads b.last).memory
      rw [Block.stream_cons, List.length_append, Memory.load_add] at holds
      obtain ⟨here, behind⟩ := List.append_inj holds (Memory.length_load _ _ _)
      have held : (m.loadedRegisters b.last).toList.take (b.last.val + 1) = b.numbers := by
        rw [take_loadedRegisters, ← Block.length_bytes, here]
        rfl
      rw [← memory, Memory.load_congr _ (show _ = (m.afterLoad b.last).index % 4096 by omega)]
        at behind
      obtain ⟨loaded, done, last⟩ := ih (m := m.afterLoad b.last) legacy (by omega) behind
      refine ⟨loaded, ?_, ?_⟩
      · rw [List.map_cons, List.map_cons, loadBlocks, effect, ← held]
        change ((m.afterLoad b.last).loadBlocks (rest.map Block.last)).bind _ = _
        rw [done]
        rfl
      · rw [last, index, Block.stream_cons, List.length_append]
        omega

/-- Blocks that are transferred in a row form one stream, in the mode in which transfers move the
index register. If the blocks are together no longer than memory, then storing them one after the
other, each from where the index register has come to, succeeds: the bytes of the stream lie in
order from where it began, around the end of memory if need be, every other cell is left alone, and
the index register stands behind the stream. Loading as many registers each time, on any machine
whose index register is set back and whose memory still holds the cells of the stream, gives back
the same blocks in order. -/
theorem blocks_form_one_stream (legacy : m.mode.legacyStore = true)
    (range : 0 ≤ m.index ∧ m.index ≤ 0xFFFF) (blocks : List Block)
    (fits : Block.total blocks ≤ 4096) :
    (stream blocks).length = Block.total blocks ∧
      ∃ stored, m.storeBlocks blocks = .ok stored ∧
        (∀ j (within : j < (stream blocks).length),
          stored.memory.read (m.index + j) = (stream blocks)[j]) ∧
        (∀ c, (∀ j < (stream blocks).length, c ≠ Memory.cell (m.index + j)) →
          stored.memory.get c = m.memory.get c) ∧
        stored.index = (m.index + (stream blocks).length) % 65536 ∧
        ∀ later : Machine, later.mode.legacyStore = true → later.index = m.index →
          (∀ j < (stream blocks).length,
            later.memory.read (m.index + j) = stored.memory.read (m.index + j)) →
          ∃ loaded,
            later.loadBlocks (blocks.map Block.last) = .ok (blocks.map Block.numbers, loaded) ∧
              loaded.index = stored.index := by
  have length := Block.length_stream blocks
  have short : (stream blocks).length ≤ 4096 := length ▸ fits
  obtain ⟨stored, done, memory, index⟩ := storeBlocks_ok legacy range blocks
  refine ⟨length, stored, done, ?_, ?_, index, ?_⟩
  · intro j within
    rw [memory]
    exact m.memory.read_store short within
  · intro c spared
    rw [memory]
    exact m.memory.get_store_of_spared spared
  · intro later legacy' back kept
    have holds : later.memory.load later.index (stream blocks).length = stream blocks := by
      rw [back, Memory.load_eq_of_read kept, memory]
      exact m.memory.load_store short
    obtain ⟨loaded, done', index'⟩ := loadBlocks_ok legacy' (back ▸ range) blocks holds
    refine ⟨loaded, done', ?_⟩
    rw [index', back, index]

def streaming : Machine :=
  { fresh { legacyStore := true } .silent with index := 0xFFFE }

def twoBlocks : List Block :=
  [⟨1, Vector.replicate 16 7⟩, ⟨2, Vector.ofFn fun r => BitVec.ofNat 8 (r.val + 1)⟩]

theorem streaming_comes_back :
    streaming.mode.legacyStore = true ∧ Block.total twoBlocks ≤ 4096 ∧
      ∃ stored, streaming.storeBlocks twoBlocks = .ok stored ∧ stored.index = 3 ∧
        stored.memory.read 0x10002 = 3 ∧
        ∃ loaded,
          { stored with mode := { legacyStore := true }, index := 0xFFFE }.loadBlocks [1, 2] =
            .ok ([[7, 7], [1, 2, 3]], loaded) := by
  have fits : Block.total twoBlocks ≤ 4096 := by decide
  obtain ⟨-, stored, done, cells, -, index, back⟩ :=
    blocks_form_one_stream (m := streaming) rfl (by decide) twoBlocks fits
  obtain ⟨loaded, done', -⟩ := back
    { stored with mode := { legacyStore := true }, index := 0xFFFE } rfl rfl fun _ _ => rfl
  exact ⟨rfl, fits, stored, done, index, cells 4 (by decide), loaded, done'⟩

end Machine

end Chip8
