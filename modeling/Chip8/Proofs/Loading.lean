import Chip8.Proofs.Faults
import Chip8.Proofs.Storage

/-!
Loading a program does what it says or nothing at all. A program that fits replaces as many bytes of
memory as it has, from the start of programs on, and nothing else (`Machine.load_eq_ok`), so a fresh
machine with it holds the font, the program and zeros (`Machine.ofProgram_eq_ok`). A program that is
too long is refused in words that name its size and the limit (`tooLarge_message`), and behind that
neither a machine nor a runner, in whatever state it is, is any different
(`Runner.loading_is_exact`).
-/

namespace Chip8

theorem tooLarge_message (size : Nat) :
    (TooLarge.mk size).message =
      "ROM is too large for memory (" ++ toString size ++ " bytes, max 3584)" := by
  have limit : " bytes, max " ++ (toString Machine.programLimit ++ ")") = " bytes, max 3584)" := by
    rfl
  unfold TooLarge.message
  rw [String.append_assoc, String.append_assoc, limit]

namespace Machine

variable {m : Machine} {program : List Byte}

theorem load_of_fits (fits : program.length ≤ programLimit) :
    m.load program = .ok { m with memory := m.memory.store origin program } :=
  if_pos fits

/-- A program that fits takes the place of as many bytes. -/
theorem load_eq_ok (m : Machine) (fits : program.length ≤ programLimit) :
    ∃ memory : Memory, m.load program = .ok { m with memory := memory } ∧
      memory.toList = m.memory.toList.take 0x200 ++ program ++
        m.memory.toList.drop (0x200 + program.length) := by
  have start : origin = (0x200 : Nat) := rfl
  refine ⟨_, load_of_fits fits, ?_⟩
  rw [start]
  apply Memory.toList_store
  exact Nat.add_le_add_left fits 0x200

/-- Fresh memory is the font and zeros. -/
theorem initialMemory_toList :
    initialMemory.toList = Font.glyphs ++ List.replicate 4016 0 := by
  have blank : Memory.blank.toList = List.replicate 4096 0 := Vector.toList_replicate
  have front : Font.address = (0 : Nat) := rfl
  have length : Font.glyphs.length = 80 := rfl
  rw [initialMemory, front, Memory.toList_store _ (by rw [length]; decide), blank, length,
    List.take_zero, List.nil_append, List.drop_replicate]

/-- A fresh machine with a program that fits: the font, zeros up to the start of programs, the
program, and zeros to the end. -/
theorem ofProgram_eq_ok (mode : Mode) (noise : Noise) (fits : program.length ≤ programLimit) :
    ∃ memory : Memory,
      ofProgram mode noise program = .ok { fresh mode noise with memory := memory } ∧
      memory.toList = Font.glyphs ++ List.replicate 432 0 ++ program ++
        List.replicate (3584 - program.length) 0 := by
  obtain ⟨memory, loaded, bytes⟩ := (fresh mode noise).load_eq_ok fits
  have length : Font.glyphs.length = 80 := rfl
  have start : (fresh mode noise).memory = initialMemory := rfl
  have before : (Font.glyphs ++ List.replicate 4016 (0 : Byte)).take 0x200 =
      Font.glyphs ++ List.replicate 432 0 := by
    rw [List.take_append, List.take_of_length_le (by rw [length]; decide), length,
      List.take_replicate]
    rfl
  have behind : (Font.glyphs ++ List.replicate 4016 (0 : Byte)).drop (0x200 + program.length) =
      List.replicate (3584 - program.length) 0 := by
    rw [List.drop_append, List.drop_eq_nil_of_le (by rw [length]; omega), length,
      List.nil_append, List.drop_replicate]
    congr 1
    omega
  rw [start, initialMemory_toList, before, behind] at bytes
  exact ⟨memory, loaded, bytes⟩

end Machine

namespace Runner

/-- A program is loaded exactly or not at all. One of more than 3584 bytes is refused, in words that
name its size and the limit, by every machine and, in whatever state it is, by every runner, which
is then no different. One that fits goes into memory from 0x200 on; every other byte and all else of
the machine stay as they are, and memory keeps its size. A runner that changes to it, in whatever
state it is, has from then on a machine in the old mode and on the new random source, with the font,
the program and zeros in memory and all else as at the start, no fault, and ticks of the length that
they had. -/
theorem loading_is_exact (program : List Byte) :
    (3584 < program.length →
      let refusal : TooLarge := ⟨program.length⟩
      refusal.message =
        "ROM is too large for memory (" ++ toString program.length ++ " bytes, max 3584)" ∧
      (∀ m : Machine, m.load program = .error refusal) ∧
      ∀ (r : Runner) (noise : Noise), r.switchProgram program noise = .error refusal ∧
        ∀ o ∈ [Operation.load program, .switchProgram program noise],
          r.reply o = .tooLarge refusal ∧ r.perform o = r) ∧
    (program.length ≤ 3584 →
      (∀ m : Machine, ∃ memory : Memory,
        m.load program = .ok { m with memory := memory } ∧
          memory.toList = m.memory.toList.take 0x200 ++ program ++
            m.memory.toList.drop (0x200 + program.length) ∧
          memory.toList.length = 4096) ∧
      ∀ (r : Runner) (noise : Noise), ∃ switched memory,
        r.switchProgram program noise = .ok switched ∧
        switched.machine = {
          mode := r.machine.mode, memory := memory, registers := Vector.replicate 16 0, index := 0
          pc := 0x200, stack := [], delay := 0, sound := 0, display := Display.dark
          keypad := Keypad.released, paused := false, redraw := false, skipped := 0
          noise := noise } ∧
        memory.toList = Font.glyphs ++ List.replicate 432 0 ++ program ++
          List.replicate (3584 - program.length) 0 ∧
        switched.fault = none ∧ switched.cycles = r.cycles) := by
  constructor
  · intro long refusal
    have refused : ∀ m : Machine, m.load program = .error refusal := fun m =>
      if_neg (Nat.not_le_of_lt long)
    have kept : ∀ (r : Runner) (noise : Noise), r.switchProgram program noise = .error refusal :=
      fun r => r.switchProgram_of_tooLarge long
    refine ⟨tooLarge_message program.length, refused, ?_⟩
    intro r noise
    refine ⟨kept r noise, ?_⟩
    intro o mem
    simp only [List.mem_cons, List.not_mem_nil, or_false] at mem
    obtain rfl | rfl := mem
    · simp only [reply, perform, refused, and_self]
    · simp only [reply, perform, kept, and_self]
  · intro fits
    constructor
    · intro m
      obtain ⟨memory, loaded, bytes⟩ := m.load_eq_ok fits
      exact ⟨memory, loaded, bytes, Vector.length_toList⟩
    · intro r noise
      obtain ⟨memory, made, bytes⟩ := Machine.ofProgram_eq_ok r.machine.mode noise fits
      exact ⟨_, memory, switchProgram_of_made made, rfl, bytes, rfl, rfl⟩

/-- A runner that a return to nowhere has stopped refuses a program that is a byte too long and
changes to one that jumps to its own place. -/
theorem strayReturn_changes_program :
    let r := (new strayReturn 10).perform .tick
    let long : List Byte := List.replicate 3585 0
    let jump : List Byte := [0x12, 0x00]
    r.fault = some (.stackUnderflow 0x202) ∧
      3584 < long.length ∧ r.perform (.switchProgram long .silent) = r ∧
      jump.length ≤ 3584 ∧ ∃ switched, r.switchProgram jump .silent = .ok switched ∧
        switched.fault = none ∧ switched.machine.pc = 0x200 ∧
        switched.machine.memory.toList =
          Font.glyphs ++ List.replicate 432 0 ++ jump ++ List.replicate 3582 0 := by
  intro r long jump
  have tooLong : 3584 < long.length := by rw [List.length_replicate]; decide
  have fits : jump.length ≤ 3584 := by decide
  obtain ⟨refused, -⟩ := loading_is_exact long
  obtain ⟨-, -, kept⟩ := refused tooLong
  obtain ⟨-, same⟩ := (kept r .silent).2 (.switchProgram long .silent) (by simp)
  obtain ⟨-, taken⟩ := loading_is_exact jump
  obtain ⟨switched, memory, accepted, machine, bytes, fault, -⟩ := (taken fits).2 r .silent
  have stopped : r.fault = some (.stackUnderflow 0x202) := by decide +kernel
  refine ⟨stopped, tooLong, same, fits, switched, accepted, fault, ?_⟩
  rw [machine]
  exact ⟨rfl, bytes⟩

end Runner

end Chip8
