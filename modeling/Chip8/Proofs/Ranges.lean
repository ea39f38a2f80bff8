import Chip8.Proofs.Runs

/-!
The ranges of a machine's parts. The types leave every counter, register, timer and return address
free; `Machine.InRange` says where they are on a machine that started from a program. Programs start
in range and every operation keeps the range, so whatever is done to a runner, in any order and with
any arguments, its machine stays in range (`reachable_inRange`).

The bounds of the parts hang together: the program counter can come from the stack and from the
first register, the stack takes its addresses from the program counter, and the timers, the index
register and the registers feed one another.
-/

namespace Chip8

namespace Machine

variable {m m' : Machine} {i : Instruction}

/-- Where the parts of a machine are. The program counter can stand behind memory: a jump adds a
byte to its target. -/
structure InRange (m : Machine) : Prop extends WellFormed m where
  index : 0 ≤ m.index ∧ m.index ≤ 0xFFFF
  pc : 0 ≤ m.pc ∧ m.pc ≤ 0x10FE
  returns : ∀ address ∈ m.stack, 2 ≤ address ∧ address ≤ 4096
  delay : 0 ≤ m.delay ∧ m.delay ≤ 255
  sound : 0 ≤ m.sound ∧ m.sound ≤ 255
  skipped : 0 ≤ m.skipped

/-! ### Steps -/

theorem nextPc_inRange (range : m.InRange) (inside : m.AtWord) (i : Instruction) :
    0 ≤ m.nextPc i ∧ m.nextPc i ≤ 0x10FE := by
  obtain ⟨low, high⟩ := inside
  cases i with
  | ret =>
      have here := range.pc
      have returns := range.returns
      simp only [nextPc]
      cases shape : m.stack with
      | nil => exact here
      | cons address rest =>
          have := returns address (by rw [shape]; exact List.mem_cons_self)
          simp only [List.headD_cons]
          omega
  | jump target | call target =>
      simp only [nextPc]
      omega
  | jumpIndexed target =>
      have byte := range.bytes 0
      simp only [nextPc]
      omega
  | skipIfByte x _ | skipUnlessByte x _ | skipIfSame x _ | skipUnlessSame x _ =>
      simp only [nextPc]
      split <;> omega
  | skipIfKey x | skipUnlessKey x | awaitKey x =>
      simp only [nextPc]
      split <;> omega
  | _ =>
      simp only [nextPc]
      omega

theorem nextIndex_inRange (range : m.InRange) (i : Instruction) :
    0 ≤ m.nextIndex i ∧ m.nextIndex i ≤ 0xFFFF := by
  have here := range.index
  cases i with
  | loadIndex target =>
      simp only [nextIndex]
      omega
  | addIndex x =>
      simp only [nextIndex]
      omega
  | loadGlyph x =>
      have byte := range.bytes x
      simp only [nextIndex, Font.glyph, Font.address, Font.glyphRows]
      omega
  | storeRegisters x | loadRegisters x =>
      simp only [nextIndex, indexAfter]
      split <;> omega
  | _ => exact here

theorem nextStack_inRange (range : m.InRange) (inside : m.AtWord) (i : Instruction) :
    ∀ address ∈ m.nextStack i, 2 ≤ address ∧ address ≤ 4096 := by
  intro address mem
  obtain ⟨low, high⟩ := inside
  cases i with
  | ret => exact range.returns address (List.mem_of_mem_tail mem)
  | call target =>
      rcases List.mem_cons.mp mem with rfl | old
      · omega
      · exact range.returns address old
  | _ => exact range.returns address mem

theorem nextDelay_inRange (range : m.InRange) (i : Instruction) :
    0 ≤ m.nextDelay i ∧ m.nextDelay i ≤ 255 := by
  cases i with
  | setDelay x => exact range.bytes x
  | _ => exact range.delay

theorem nextSound_inRange (range : m.InRange) (i : Instruction) :
    0 ≤ m.nextSound i ∧ m.nextSound i ≤ 255 := by
  cases i with
  | setSound x => exact range.bytes x
  | _ => exact range.sound

namespace InRange

theorem execute (range : m.InRange) (inside : m.AtWord) (done : m.execute i = .ok m') :
    m'.InRange := by
  have follows := execute_follows done
  exact {
    toWellFormed := range.toWellFormed.execute done
    index := follows.index ▸ nextIndex_inRange range i
    pc := follows.pc ▸ nextPc_inRange range inside i
    returns := follows.stack ▸ nextStack_inRange range inside i
    delay := follows.delay ▸ nextDelay_inRange range i
    sound := follows.sound ▸ nextSound_inRange range i
    skipped := follows.skipped ▸ range.skipped }

/-- A step that fails leaves the machine, a skipped word moves the program counter and counts. -/
theorem stepped (range : m.InRange) : m.stepped.InRange := by
  unfold Machine.stepped
  cases result : m.step.value with
  | ok done =>
      obtain ⟨i, after⟩ := done
      rcases step_ok result with ⟨inside, ⟨-, done⟩ | ⟨-, -, -, rfl⟩⟩
      · exact range.execute inside done
      · obtain ⟨low, high⟩ := inside
        have skipped := range.skipped
        exact { range with
          pc := by
            change 0 ≤ m.pc + 2 ∧ m.pc + 2 ≤ 0x10FE
            omega
          skipped := by
            change 0 ≤ m.skipped + 1
            omega }
  | error stop =>
      obtain ⟨f, -, rfl⟩ := range.toWellFormed.step_error result
      exact range

/-! ### Operations -/

theorem countDown (range : m.InRange) : m.countDown.InRange := by
  have delay := range.delay
  have sound := range.sound
  exact { range with
    delay := by
      simp only [Machine.countDown]
      omega
    sound := by
      simp only [Machine.countDown]
      omega }

theorem act (range : m.InRange) (action : Keypad.Action) : (m.act action).InRange :=
  { range with }

theorem withMemory (range : m.InRange) (memory : Memory) :
    { m with memory := memory }.InRange :=
  { range with }

theorem load (range : m.InRange) {program : List Byte} (loaded : m.load program = .ok m') :
    m'.InRange := by
  unfold Machine.load at loaded
  split at loaded <;> cases loaded
  exact range.withMemory _

end InRange

theorem fresh_inRange (mode : Mode) (noise : Noise) : (fresh mode noise).InRange where
  bytes := fresh_bytes mode noise
  depth := by simp [fresh]
  index := by simp [fresh]
  pc := by simp [fresh, origin]
  returns := by simp [fresh]
  delay := by simp [fresh]
  sound := by simp [fresh]
  skipped := by simp [fresh]

theorem reset_inRange (m : Machine) : m.reset.InRange :=
  { fresh_inRange m.mode m.noise with }

/-- What the types of its parts hold of every machine. -/
structure Shaped (m : Machine) : Prop where
  memory : m.memory.toList.length = 4096
  bytes : ∀ address, 0 ≤ (m.readMemory address).toNat ∧ (m.readMemory address).toNat ≤ 255
  registers : m.registers.toList.length = 16
  display : m.display.toList.length = 2048
  keys : ∀ code, m.keypad.isPressed code = true → 0 ≤ code ∧ code ≤ 15

theorem shaped (m : Machine) : m.Shaped where
  memory := by simp
  bytes address := by
    have byte := (m.readMemory address).isLt
    omega
  registers := by simp
  display := by simp
  keys code pressed := by
    unfold Keypad.isPressed Key.ofCode? at pressed
    by_cases inside : 0 ≤ code ∧ code < 16
    · omega
    · rw [dif_neg inside] at pressed
      cases pressed

end Machine

namespace Runner

variable {r : Runner}

theorem switchProgram_inRange {program : List Byte} {noise : Noise} {switched : Runner}
    (accepted : r.switchProgram program noise = .ok switched) : switched.machine.InRange := by
  unfold switchProgram at accepted
  cases made : Machine.ofProgram r.machine.mode noise program with
  | error e =>
      rw [made] at accepted
      cases accepted
  | ok m =>
      rw [made] at accepted
      cases accepted
      exact (Machine.fresh_inRange _ _).load made

/-- Every operation keeps the range, whether it succeeds or not. -/
theorem perform_inRange (range : r.machine.InRange) (operation : Operation) :
    (r.perform operation).machine.InRange := by
  have step := fun (m : Machine) (h : m.InRange) => h.stepped
  have count := fun (m : Machine) (h : m.InRange) => h.countDown
  cases operation with
  | step => exact range.stepped
  | countDown => exact range.countDown
  | act action => exact range.act action
  | reset => exact Machine.reset_inRange r.machine
  | loadFont => exact range.withMemory _
  | load program =>
      simp only [perform]
      split
      · rename_i loaded result
        exact range.load result
      · exact range
  | tick => exact tick_keeps step count range
  | advance n => exact advance_keeps step range n
  | togglePause => exact { range with }
  | run checks clock rate =>
      obtain ⟨j, -, same⟩ := r.perform_run_eq_ticks checks clock rate
      rw [same]
      exact ticks_keeps step count range j
  | switchProgram program noise =>
      simp only [perform]
      split
      · rename_i switched accepted
        exact switchProgram_inRange accepted
      · exact range

theorem performAll_inRange (range : r.machine.InRange) (operations : List Operation) :
    (r.performAll operations).machine.InRange := by
  induction operations generalizing r with
  | nil => exact range
  | cons operation rest ih => exact ih (perform_inRange range operation)

/-- A program that fits starts a machine, and whatever is then done to the machine and its runner,
the machine stays in range. -/
theorem reachable_inRange (mode : Mode) (noise : Noise) (program : List Byte)
    (fits : program.length ≤ 3584) (cycles : Int) (operations : List Operation) :
    ∃ start, Machine.ofProgram mode noise program = .ok start ∧
      ((new start cycles).performAll operations).machine.InRange ∧
      ((new start cycles).performAll operations).machine.Shaped := by
  have fresh := Machine.fresh_inRange mode noise
  exact ⟨_, if_pos fits, performAll_inRange (fresh.withMemory _) operations, Machine.shaped _⟩

/-- A program that jumps behind memory, between a program that is refused and keys that exist and
do not. -/
theorem jumping_program_inRange :
    [(0x60 : Byte), 0xFF, 0xBF, 0xFF].length ≤ 3584 ∧
      ∃ start, Machine.ofProgram {} .silent [0x60, 0xFF, 0xBF, 0xFF] = .ok start ∧
        ((new start 2).performAll [.act (.press 99), .tick,
          .switchProgram (List.replicate 3585 0) .silent, .act (.press 15),
          .step]).machine.InRange ∧
        ((new start 2).performAll [.act (.press 99), .tick,
          .switchProgram (List.replicate 3585 0) .silent, .act (.press 15),
          .step]).machine.Shaped :=
  ⟨by decide, reachable_inRange {} .silent _ (by decide) 2 _⟩

end Runner

end Chip8
