/-!
Main memory: 4096 bytes, addressed by integers of any size. An address names the cell it is
congruent to modulo 4096, so no read or write leaves memory and blocks wrap around its end.
-/

namespace Chip8

/-- A byte, as a vector of eight bits. -/
abbrev Byte := BitVec 8

/-- The 4096 cells of memory. -/
abbrev Memory := Vector Byte 4096

namespace Memory

def blank : Memory := Vector.replicate 4096 0

/-- The cell that an address names. -/
def cell (address : Int) : Fin 4096 :=
  ⟨(address % 4096).toNat, by omega⟩

def read (memory : Memory) (address : Int) : Byte :=
  memory[cell address]

def write (memory : Memory) (address : Int) (value : Byte) : Memory :=
  memory.set (cell address) value

/-- Writes consecutive bytes from an address on. -/
def store (memory : Memory) (address : Int) : List Byte → Memory
  | [] => memory
  | value :: rest => store (write memory address value) (address + 1) rest

/-- Reads a number of consecutive bytes from an address on. -/
def load (memory : Memory) (address : Int) (count : Nat) : List Byte :=
  (List.range count).map fun (offset : Nat) => read memory (address + offset)

/-- The word whose high byte stands at an address and whose low byte follows it. -/
def word (memory : Memory) (address : Int) : Int :=
  (read memory address).toNat * 256 + (read memory (address + 1)).toNat

end Memory

end Chip8
