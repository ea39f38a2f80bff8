import Chip8.Execution

/-!
What one instruction does. `Machine.execute` is read part by part: for every part of a machine that
is a number or a list of numbers there is a function of the machine and the instruction that gives
its new value, and `execute_follows` says that an instruction which succeeds takes every part there
and leaves the mode, the keypad, the pause and the count of skipped words alone. Registers that hold
bytes go on to hold bytes (`execute_bytes`).

An instruction fails in three ways only (`execute_error`): a call without room, a return without an
address, and a store of a number that is no byte. The first two leave nothing behind but the moved
program counter; the third cannot happen while the registers hold bytes.
-/

namespace Chip8

namespace Machine

variable {m m' : Machine} {i : Instruction} {e : Interruption}

/-! ### The parts of a machine after an instruction -/

/-- The program counter after an instruction. -/
def nextPc (m : Machine) : Instruction → Int
  | .ret => m.stack.headD m.pc
  | .jump target | .call target => target.val
  | .jumpIndexed target => target.val + m.registers.get 0
  | .skipIfByte x byte => m.pc + if m.registers.get x == byte.toNat then 4 else 2
  | .skipUnlessByte x byte => m.pc + if m.registers.get x != byte.toNat then 4 else 2
  | .skipIfSame x y => m.pc + if m.registers.get x == m.registers.get y then 4 else 2
  | .skipUnlessSame x y => m.pc + if m.registers.get x != m.registers.get y then 4 else 2
  | .skipIfKey x => m.pc + if m.keypad.isPressed (m.registers.get x) then 4 else 2
  | .skipUnlessKey x => m.pc + if !m.keypad.isPressed (m.registers.get x) then 4 else 2
  | .awaitKey _ => if m.keypad.anyPressed then m.pc + 2 else m.pc
  | _ => m.pc + 2

def nextStack (m : Machine) : Instruction → List Int
  | .ret => m.stack.tail
  | .call _ => (m.pc + 2) :: m.stack
  | _ => m.stack

def nextIndex (m : Machine) : Instruction → Int
  | .loadIndex target => target.val
  | .addIndex x => (m.index + m.registers.get x) % 65536
  | .loadGlyph x => Font.glyph (m.registers.get x)
  | .storeRegisters x | .loadRegisters x => m.indexAfter x
  | _ => m.index

def nextDelay (m : Machine) : Instruction → Int
  | .setDelay x => m.registers.get x
  | _ => m.delay

def nextSound (m : Machine) : Instruction → Int
  | .setSound x => m.registers.get x
  | _ => m.sound

/-- A machine follows another by an instruction: its counters, its stack and its timers are what
the instruction makes of them, and what no instruction touches is the same. -/
structure Follows (m : Machine) (i : Instruction) (m' : Machine) : Prop where
  pc : m'.pc = m.nextPc i
  stack : m'.stack = m.nextStack i
  index : m'.index = m.nextIndex i
  delay : m'.delay = m.nextDelay i
  sound : m'.sound = m.nextSound i
  mode : m'.mode = m.mode
  keypad : m'.keypad = m.keypad
  paused : m'.paused = m.paused
  skipped : m'.skipped = m.skipped

/-! ### Instructions that can fail -/

/-- A refusal is made with the program counter moved and names the place before it, which is where
the instruction stands. -/
theorem next_pc_sub (m : Machine) : m.next.pc - 2 = m.pc := by
  change m.pc + 2 - 2 = m.pc
  omega

theorem execute_call (target : Target) :
    m.execute (.call target) =
      if m.stack.length < stackLimit then
        .ok { m with pc := target.val, stack := (m.pc + 2) :: m.stack }
      else .error (.refusal m.next (.stackOverflow m.pc m.stack.length)) := by
  simp only [execute, push, next_pc_sub]
  by_cases room : m.stack.length < stackLimit
  · rw [if_pos room, if_pos (show m.next.stack.length < stackLimit from room)]
    rfl
  · rw [if_neg room, if_neg (show ¬ m.next.stack.length < stackLimit from room)]
    rfl

theorem execute_ret_nil (empty : m.stack = []) :
    m.execute .ret = .error (.refusal m.next (.stackUnderflow m.pc)) := by
  have popped : m.next.pop = .error (.stackUnderflow m.pc) := by
    rw [← next_pc_sub]
    simp [pop, next, empty]
  simp only [execute, popped]
  rfl

theorem execute_ret_cons {address : Int} {rest : List Int} (shape : m.stack = address :: rest) :
    m.execute .ret = .ok { m with pc := address, stack := rest } := by
  have popped : m.next.pop = .ok (address, { m.next with stack := rest }) := by
    simp [pop, next, shape]
  simp only [execute, popped]
  rfl

theorem execute_call_ok {target : Target} (done : m.execute (.call target) = .ok m') :
    m.stack.length < stackLimit ∧
      m' = { m with pc := target.val, stack := (m.pc + 2) :: m.stack } := by
  rw [execute_call] at done
  by_cases room : m.stack.length < stackLimit
  · rw [if_pos room] at done
    cases done
    exact ⟨room, rfl⟩
  · rw [if_neg room] at done
    cases done

theorem execute_ret_ok (done : m.execute .ret = .ok m') :
    m' = { m with pc := m.stack.headD m.pc, stack := m.stack.tail } := by
  cases shape : m.stack with
  | nil =>
      rw [execute_ret_nil shape] at done
      cases done
  | cons address rest =>
      rw [execute_ret_cons shape] at done
      cases done
      rfl

/-- Waiting for a key goes on, or it ends with the lowest key that is held. -/
theorem execute_awaitKey_ok {x : Register} (done : m.execute (.awaitKey x) = .ok m') :
    (m.keypad.pressed = [] ∧ m' = m) ∨
      ∃ key rest, m.keypad.pressed = key :: rest ∧ m' = m.next.setRegister x key.val := by
  simp only [execute] at done
  cases pressed : m.keypad.pressed with
  | nil =>
      rw [pressed] at done
      cases done
      exact .inl ⟨rfl, rfl⟩
  | cons key rest =>
      rw [pressed] at done
      cases done
      exact .inr ⟨key, rest, rfl, rfl⟩

/-- Bytes are stored to the last. -/
theorem storeNumbers_bytes {values : List Int} (bytes : ∀ v ∈ values, 0 ≤ v ∧ v ≤ 255)
    (address : Int) :
    m.storeNumbers address values =
      .ok { m with memory := m.memory.store address (values.map lowByte) } := by
  induction values generalizing m address with
  | nil => rfl
  | cons value rest ih =>
      have byte := bytes value List.mem_cons_self
      have others := fun v mem => bytes v (List.mem_cons_of_mem _ mem)
      simp only [storeNumbers, writeMemory, if_pos byte]
      rw [ih others]
      rfl

/-- A store that succeeds was one of bytes. -/
theorem bytes_of_storeNumbers {values : List Int} {address : Int}
    (stored : m.storeNumbers address values = .ok m') : ∀ v ∈ values, 0 ≤ v ∧ v ≤ 255 := by
  induction values generalizing m address with
  | nil =>
      intro v mem
      cases mem
  | cons value rest ih =>
      simp only [storeNumbers, writeMemory] at stored
      by_cases byte : 0 ≤ value ∧ value ≤ 255
      · rw [if_pos byte] at stored
        exact List.forall_mem_cons.mpr ⟨byte, ih stored⟩
      · rw [if_neg byte] at stored
        cases stored

theorem storeNumbers_ok {values : List Int} {address : Int}
    (stored : m.storeNumbers address values = .ok m') :
    m' = { m with memory := m.memory.store address (values.map lowByte) } := by
  rw [storeNumbers_bytes (bytes_of_storeNumbers stored)] at stored
  cases stored
  rfl

/-- Storing numbers changes memory and nothing else. -/
theorem storeNumbers_frame {values : List Int} {address : Int}
    (stored : m.storeNumbers address values = .ok m') : m' = { m with memory := m'.memory } := by
  rw [storeNumbers_ok stored]

/-- Only a number that is no byte breaks a store off. -/
theorem storeNumbers_error {values : List Int} {address : Int}
    (stopped : m.storeNumbers address values = .error e) : ∃ n, e.cause = .notAByte n := by
  induction values generalizing m address with
  | nil => cases stopped
  | cons value rest ih =>
      simp only [storeNumbers] at stopped
      split at stopped
      · exact ih stopped
      · cases stopped
        exact ⟨_, rfl⟩

theorem stored_of_storeRegisters {x : Register} (done : m.execute (.storeRegisters x) = .ok m') :
    ∃ after, m.next.storeNumbers m.index (m.registers.toList.take (x.val + 1)) = .ok after ∧
      m' = { after with index := m.indexAfter x } := by
  simp only [execute] at done
  cases stored : m.next.storeNumbers m.index (m.registers.toList.take (x.val + 1)) with
  | error e =>
      rw [stored] at done
      cases done
  | ok after =>
      rw [stored] at done
      cases done
      exact ⟨after, rfl, rfl⟩

theorem stopped_of_storeRegisters {x : Register}
    (stopped : m.execute (.storeRegisters x) = .error e) :
    m.next.storeNumbers m.index (m.registers.toList.take (x.val + 1)) = .error e := by
  simp only [execute] at stopped
  cases stored : m.next.storeNumbers m.index (m.registers.toList.take (x.val + 1)) with
  | ok after =>
      rw [stored] at stopped
      cases stopped
  | error e' =>
      rw [stored] at stopped
      cases stopped
      rfl

theorem execute_storeRegisters_ok {x : Register} (done : m.execute (.storeRegisters x) = .ok m') :
    m' = { m.next with memory := m'.memory, index := m.indexAfter x } := by
  obtain ⟨after, stored, rfl⟩ := stored_of_storeRegisters done
  rw [storeNumbers_frame stored]

/-! ### Instructions that succeed -/

/-- An instruction that succeeds takes every counter, the stack and the timers to their next
values, and touches neither the mode nor the keypad, the pause or the count of skipped words. -/
theorem execute_follows (done : m.execute i = .ok m') : m.Follows i m' := by
  cases i with
  | ret =>
      rw [execute_ret_ok done]
      constructor <;> rfl
  | call target =>
      rw [(execute_call_ok done).2]
      constructor <;> rfl
  | awaitKey x =>
      rcases execute_awaitKey_ok done with ⟨none, rfl⟩ | ⟨key, rest, held, rfl⟩
      · constructor
        case pc => simp [nextPc, Keypad.anyPressed, none]
        all_goals rfl
      · constructor
        case pc => simp [nextPc, Keypad.anyPressed, held, setRegister, putRegister, next]
        all_goals rfl
  | storeDecimal x =>
      rw [storeNumbers_frame done]
      constructor <;> rfl
  | storeRegisters x =>
      rw [execute_storeRegisters_ok done]
      constructor <;> rfl
  | _ =>
      cases done
      constructor <;> rfl

/-! ### Registers that hold bytes -/

/-- The low eight bits of a byte are all of it. -/
theorem toNat_lowByte {value : Int} (byte : 0 ≤ value ∧ value ≤ 255) :
    ((lowByte value).toNat : Int) = value := by
  simp only [lowByte, BitVec.toNat_ofInt]
  omega

theorem get_loadedRegisters (m : Machine) (x r : Register) :
    (m.loadedRegisters x).get r =
      if r ≤ x then ((m.memory.read (m.index + r.val)).toNat : Int) else m.registers.get r := by
  change (Vector.ofFn _)[r.val] = _
  rw [Vector.getElem_ofFn]

def HoldsBytes (m : Machine) : Prop :=
  ∀ r : Register, 0 ≤ m.registers.get r ∧ m.registers.get r ≤ 255

namespace HoldsBytes

theorem setRegister (bytes : m.HoldsBytes) (x : Register) (value : Int) :
    (m.setRegister x value).HoldsBytes := by
  intro r
  change 0 ≤ (m.registers.set x.val (value % 256))[r.val] ∧
    (m.registers.set x.val (value % 256))[r.val] ≤ 255
  rw [Vector.getElem_set]
  split
  · omega
  · exact bytes r

theorem setFlagged (bytes : m.HoldsBytes) (x : Register) (value : Int) (flag : Bool) :
    (m.setFlagged x value flag).HoldsBytes :=
  (bytes.setRegister x value).setRegister 15 (flagNumber flag)

theorem loadedRegisters (bytes : m.HoldsBytes) (x r : Register) :
    0 ≤ (m.loadedRegisters x).get r ∧ (m.loadedRegisters x).get r ≤ 255 := by
  have byte := (m.memory.read (m.index + r.val)).isLt
  have held := bytes r
  rw [get_loadedRegisters]
  split
  · omega
  · exact held

theorem take (bytes : m.HoldsBytes) (count : Nat) :
    ∀ v ∈ m.registers.toList.take count, 0 ≤ v ∧ v ≤ 255 := by
  intro v mem
  have inside := List.mem_of_mem_take mem
  rw [Vector.mem_toList_iff, Vector.mem_iff_getElem] at inside
  obtain ⟨r, bound, rfl⟩ := inside
  exact bytes ⟨r, bound⟩

end HoldsBytes

theorem fresh_bytes (mode : Mode) (noise : Noise) : (fresh mode noise).HoldsBytes := by
  intro r
  change 0 ≤ (Vector.replicate 16 (0 : Int))[r.val] ∧ (Vector.replicate 16 (0 : Int))[r.val] ≤ 255
  simp

/-- A byte has no more than two hundreds, so each of its three parts is a digit. -/
theorem decimalDigits_digits {value : Int} (byte : 0 ≤ value ∧ value ≤ 255) :
    ∀ d ∈ decimalDigits value, 0 ≤ d ∧ d ≤ 9 := by
  intro d mem
  simp only [decimalDigits, List.mem_cons, List.not_mem_nil, or_false] at mem
  omega

theorem decimalDigits_bytes {value : Int} (byte : 0 ≤ value ∧ value ≤ 255) :
    ∀ d ∈ decimalDigits value, 0 ≤ d ∧ d ≤ 255 := by
  intro d mem
  have digit := decimalDigits_digits byte d mem
  omega

/-- Every instruction writes registers modulo 256 or from memory. -/
theorem execute_bytes (bytes : m.HoldsBytes) (done : m.execute i = .ok m') : m'.HoldsBytes := by
  have moved : m.next.HoldsBytes := bytes
  cases i with
  | ret =>
      rw [execute_ret_ok done]
      exact bytes
  | call target =>
      rw [(execute_call_ok done).2]
      exact bytes
  | awaitKey x =>
      rcases execute_awaitKey_ok done with ⟨-, rfl⟩ | ⟨key, rest, -, rfl⟩
      · exact bytes
      · exact moved.setRegister x _
  | storeDecimal x =>
      rw [storeNumbers_frame done]
      exact bytes
  | storeRegisters x =>
      rw [execute_storeRegisters_ok done]
      exact bytes
  | loadRegisters x =>
      cases done
      exact bytes.loadedRegisters x
  | draw x y rows =>
      cases done
      exact bytes.setRegister 15 _
  | add x y | subtract x y | subtractFrom x y | shiftLeft x y | shiftRight x y =>
      cases done
      exact moved.setFlagged x _ _
  | loadByte x byte | addByte x byte | random x byte =>
      cases done
      exact moved.setRegister x _
  | copy x y | or x y | and x y | xor x y =>
      cases done
      exact moved.setRegister x _
  | readDelay x =>
      cases done
      exact moved.setRegister x _
  | _ =>
      cases done
      exact bytes

/-! ### Instructions that fail -/

/-- The refusals of calls and returns, made with nothing but the program counter moved. -/
inductive Refused (m : Machine) : Instruction → Interruption → Prop where
  | call {target : Target} (full : stackLimit ≤ m.stack.length) :
      Refused m (.call target) (.refusal m.next (.stackOverflow m.pc m.stack.length))
  | ret (empty : m.stack = []) :
      Refused m .ret (.refusal m.next (.stackUnderflow m.pc))

/-- An instruction fails by a refusal or at a number that is no byte, and the registers of a machine
that hold bytes have no such number. -/
theorem execute_error (stopped : m.execute i = .error e) :
    m.Refused i e ∨ ((∃ n, e.cause = .notAByte n) ∧ ¬ m.HoldsBytes) := by
  cases i with
  | ret =>
      cases shape : m.stack with
      | nil =>
          rw [execute_ret_nil shape] at stopped
          cases stopped
          exact .inl (.ret shape)
      | cons address rest =>
          rw [execute_ret_cons shape] at stopped
          cases stopped
  | call target =>
      rw [execute_call] at stopped
      split at stopped <;> cases stopped
      exact .inl (.call (by omega))
  | awaitKey x =>
      simp only [execute] at stopped
      split at stopped <;> cases stopped
  | storeDecimal x =>
      refine .inr ⟨storeNumbers_error stopped, fun bytes => ?_⟩
      simp only [execute, storeNumbers_bytes (decimalDigits_bytes (bytes x))] at stopped
      cases stopped
  | storeRegisters x =>
      have stored := stopped_of_storeRegisters stopped
      refine .inr ⟨storeNumbers_error stored, fun bytes => ?_⟩
      rw [storeNumbers_bytes (bytes.take _)] at stored
      cases stored
  | _ => cases stopped

/-- A refusal is what the instruction comes to. -/
theorem Refused.execute (refused : m.Refused i e) : m.execute i = .error e := by
  cases refused with
  | call full => rw [execute_call, if_neg (by omega)]
  | ret empty => rw [execute_ret_nil empty]

end Machine

end Chip8
