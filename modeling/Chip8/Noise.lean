import Chip8.Memory

/-!
Random bytes. A source is an endless stream of bytes together with the number of bytes already
drawn, so a run of the machine is a function of its source.
-/

namespace Chip8

/-- A stream of bytes and how many of them were drawn. -/
structure Noise where
  stream : Nat → Byte
  drawn : Nat := 0

namespace Noise

def silent : Noise := ⟨fun _ => 0, 0⟩

/-- The source that repeats a list of numbers, each modulo 256; an empty list gives zeros. -/
def cycle (script : Array Int) : Noise where
  stream := fun n => ((script[n % script.size]?).map (BitVec.ofInt 8)).getD 0

/-- A source whose bytes are scattered by mixing a seed with the position in the stream. -/
def ofSeed (seed : UInt64) : Noise where
  stream := fun n =>
    let a := seed + 0x9E3779B97F4A7C15 * (n.toUInt64 + 1)
    let b := (a ^^^ (a >>> 30)) * 0xBF58476D1CE4E5B9
    let c := (b ^^^ (b >>> 27)) * 0x94D049BB133111EB
    BitVec.ofNat 8 (c ^^^ (c >>> 31)).toNat

/-- The next byte, and the source with that byte drawn. -/
def next (noise : Noise) : Byte × Noise :=
  (noise.stream noise.drawn, { noise with drawn := noise.drawn + 1 })

end Noise

end Chip8
