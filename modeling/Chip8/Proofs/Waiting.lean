import Chip8.Operation
import Chip8.Proofs.Keys
import Chip8.Proofs.Runs
import Chip8.Proofs.Transfers

/-!
Waiting for a key. At the word FX0A a machine on which no key is held takes a step that changes
nothing (`Machine.AwaitsKey.step_quiet`), so it takes any number of them (`after?_quiet`), and of a
tick only the count of the timers is left (`tick_quiet`). What goes on around it is a `Wait`: ticks
at which no key is held, and between them clients who act on the keypad as they like. A wait of any
length leaves everything but the timers and the keypad as it was (`Wait.performAll`), and the step
behind it takes the lowest of the keys that are held by then (`Machine.key_wait_stalls`).
-/

namespace Chip8

/-- A wait: ticks at which no key is held, and between them clients who act on the keypad. It has a
number of ticks and takes one keypad to another. -/
inductive Wait : Keypad → List Operation → Nat → Keypad → Prop where
  | done (keypad : Keypad) : Wait keypad [] 0 keypad
  | tick {keypad last : Keypad} {rest : List Operation} {ticks : Nat} (quiet : keypad.pressed = [])
      (later : Wait keypad rest ticks last) : Wait keypad (.tick :: rest) (ticks + 1) last
  | act {keypad last : Keypad} {rest : List Operation} {ticks : Nat} (action : Keypad.Action)
      (later : Wait (keypad.apply action) rest ticks last) :
      Wait keypad (.act action :: rest) ticks last

/-- What is answered to an operation of a wait: to a tick, that the machine is running. -/
def Operation.calmReply : Operation → Reply
  | .tick => .running true
  | _ => .done

/-- Ticks alone are a wait if no key is held. -/
theorem Wait.ticks {keypad : Keypad} (quiet : keypad.pressed = []) (count : Nat) :
    Wait keypad (List.replicate count .tick) count keypad := by
  induction count with
  | zero => exact .done keypad
  | succ count ih => exact .tick quiet ih

namespace Machine

variable {m : Machine} {x : Register}

/-- The machine stands at the word FX0A, which waits for a key. -/
def AwaitsKey (m : Machine) (x : Register) : Prop :=
  m.AtWord ∧ m.word = Opcode.transfer x 0x0A

/-- The machine after a wait: its timers are counted down, its keypad is what the clients made of
it, and all else is as it was. -/
def waited (m : Machine) (ticks : Nat) (keypad : Keypad) : Machine :=
  { m with delay := max 0 (m.delay - ticks), sound := max 0 (m.sound - ticks), keypad := keypad }

/-- The counts of the timers add up, since none goes below zero. -/
theorem countDown_waited (m : Machine) (ticks : Nat) (keypad : Keypad) :
    m.countDown.waited ticks keypad = m.waited (ticks + 1) keypad := by
  have delay : max 0 (max 0 (m.delay - 1) - ticks) = max 0 (m.delay - (ticks + 1 : Nat)) := by omega
  have sound : max 0 (max 0 (m.sound - 1) - ticks) = max 0 (m.sound - (ticks + 1 : Nat)) := by omega
  simp only [waited, countDown, delay, sound]

namespace AwaitsKey

theorem identify (awaits : m.AwaitsKey x) :
    Instruction.identify m.word m.pc = .ok (.awaitKey x) := by
  obtain ⟨family, first, tail⟩ := Opcode.ofWord_transfer x 0x0A
  rw [awaits.2]
  exact Instruction.identify_eq_ok_iff_means.mpr ⟨family, tail, first.symm⟩

/-- While no key is held the step succeeds and changes nothing. -/
theorem step_quiet (awaits : m.AwaitsKey x) (quiet : m.keypad.pressed = []) :
    m.step.value = .ok (.awaitKey x, m) := by
  apply step_of_done awaits.1 awaits.identify
  simp only [execute, quiet]

/-- The first of the held keys goes to the register. -/
theorem step_held (awaits : m.AwaitsKey x) {key : Key} {rest : List Key}
    (held : m.keypad.pressed = key :: rest) :
    m.step.value = .ok (.awaitKey x,
      { m with pc := m.pc + 2, registers := m.registers.set x key.val x.isLt }) := by
  have byte : (key.val : Int) % 256 = key.val := by omega
  apply step_of_done awaits.1 awaits.identify
  simp only [execute, held, setRegister, byte]
  rfl

/-- Steps without effect can go on for ever. -/
theorem after?_quiet (awaits : m.AwaitsKey x) (quiet : m.keypad.pressed = []) (n : Nat) :
    m.after? n = some m := by
  induction n with
  | zero => rfl
  | succ n ih =>
      apply after?_succ.mpr
      exact ⟨m, .awaitKey x, ih, awaits.step_quiet quiet⟩

end AwaitsKey

end Machine

namespace Runner

variable {r : Runner} {x : Register} {operations : List Operation} {ticks : Nat}
  {keypad last : Keypad}

/-- A tick of any length is no more than a count of the timers. -/
theorem tick_quiet (awaits : r.machine.AwaitsKey x) (unpaused : r.machine.paused = false)
    (running : r.fault = none) (quiet : r.machine.keypad.pressed = []) :
    r.tick.runner.machine = r.machine.countDown ∧ r.tick.runner.fault = none ∧
      r.tick.broken = none :=
  tick_of_after unpaused running (awaits.after?_quiet quiet r.cycles)

end Runner

namespace Wait

variable {r : Runner} {x : Register} {operations : List Operation} {ticks : Nat}
  {keypad last : Keypad}

/-- A wait changes the timers and the keypad, comes to no fault, and is answered calmly. -/
theorem performAll (wait : Wait keypad operations ticks last) (same : r.machine.keypad = keypad)
    (awaits : r.machine.AwaitsKey x) (unpaused : r.machine.paused = false)
    (running : r.fault = none) (timers : ∀ t : Timer, t.InRange r.machine) :
    (r.performAll operations).machine = r.machine.waited ticks last ∧
      (r.performAll operations).fault = none ∧
      r.replies operations = operations.map Operation.calmReply := by
  induction wait generalizing r with
  | done keypad =>
      have delay : max 0 (r.machine.delay - (0 : Nat)) = r.machine.delay := by
        rw [Int.natCast_zero, Int.sub_zero]
        exact Int.max_eq_right (timers .delay)
      have sound : max 0 (r.machine.sound - (0 : Nat)) = r.machine.sound := by
        rw [Int.natCast_zero, Int.sub_zero]
        exact Int.max_eq_right (timers .sound)
      refine ⟨?_, running, rfl⟩
      rw [Machine.waited, delay, sound, ← same]
      rfl
  | @tick keypad last rest ticks quiet later ih =>
      obtain ⟨machine, fault, broken⟩ := r.tick_quiet awaits unpaused running (same ▸ quiet)
      have counted : (r.perform .tick).machine = r.machine.countDown := machine
      have answer : r.reply .tick = Operation.calmReply .tick := by
        simp only [Runner.reply, Stint.reply, broken, Runner.running, fault, Option.isNone_none,
          Operation.calmReply]
      have inRange : ∀ t : Timer, t.InRange (r.perform .tick).machine := by
        intro t
        rw [counted]
        cases t <;> exact Int.le_max_left 0 _
      obtain ⟨after, still, answers⟩ := ih (r := r.perform .tick)
        (by rw [counted]; exact same) (by rw [counted]; exact awaits)
        (by rw [counted]; exact unpaused) fault inRange
      refine ⟨?_, still, by rw [Runner.replies, List.map_cons, answer, answers]⟩
      rw [counted, Machine.countDown_waited] at after
      exact after
  | @act keypad last rest ticks action later ih =>
      obtain ⟨after, still, answers⟩ := ih (r := r.perform (.act action))
        (congrArg (Keypad.apply · action) same) awaits unpaused running (by
          intro t
          cases t
          · exact timers .delay
          · exact timers .sound)
      exact ⟨after, still, by rw [Runner.replies, List.map_cons, answers]; rfl⟩

end Wait

namespace Machine

variable {m : Machine} {x : Register}

/-- A wait for a key has no effect but on the timers. At the word FX0A, while no key is held, a step
succeeds and leaves the machine as it is. So a runner that is neither paused nor stopped can be
given any number of ticks of any length: they only count the timers down, each by one and no further
than zero, and come to no fault; and it makes no difference what clients do to the keypad, as long
as no key is held when a tick comes. If keys are held then, the next step puts the lowest of their
codes into VX, goes on to the word behind, and changes nothing else. -/
theorem key_wait_stalls (awaits : m.AwaitsKey x) (quiet : m.keypad.pressed = []) :
    m.step.value = .ok (.awaitKey x, m) ∧
      ∀ r : Runner, r.machine = m → m.paused = false → r.fault = none →
        (∀ t : Timer, t.InRange m) →
        (∀ k : Nat,
          let waited := r.performAll (List.replicate k .tick)
          waited.machine =
            { m with delay := max 0 (m.delay - k), sound := max 0 (m.sound - k) } ∧
          waited.fault = none ∧
          r.replies (List.replicate k .tick) = List.replicate k (.running true)) ∧
        ∀ operations k last, Wait m.keypad operations k last →
          let waited := r.performAll operations
          waited.machine =
            { m with
              delay := max 0 (m.delay - k), sound := max 0 (m.sound - k), keypad := last } ∧
          waited.fault = none ∧
          ((∃ code, last.Holds code) →
            ∃ key : Key, last.Holds key.val ∧ (∀ code, last.Holds code → key.val ≤ code) ∧
              waited.machine.step.value = .ok (.awaitKey x,
                { waited.machine with
                  pc := m.pc + 2, registers := m.registers.set x key.val x.isLt })) := by
  refine ⟨awaits.step_quiet quiet, ?_⟩
  rintro r rfl unpaused running timers
  constructor
  · intro k
    obtain ⟨after, still, answers⟩ :=
      (Wait.ticks quiet k).performAll rfl awaits unpaused running timers
    rw [List.map_replicate] at answers
    exact ⟨after, still, answers⟩
  · intro operations k last wait
    obtain ⟨after, still, -⟩ := wait.performAll rfl awaits unpaused running timers
    refine ⟨after, still, ?_⟩
    rintro ⟨code, held⟩
    cases pressed : last.pressed with
    | nil =>
        obtain ⟨key, mem, -⟩ := held
        rw [pressed] at mem
        cases mem
    | cons key rest =>
        have first : last.Holds key.val := ⟨key, by rw [pressed]; exact List.mem_cons_self, rfl⟩
        refine ⟨key, first, fun code held => Keypad.le_of_pressed pressed held, ?_⟩
        rw [after]
        exact AwaitsKey.step_held (m := r.machine.waited k last) awaits pressed

def listening : Machine :=
  { fresh {} .silent with
    memory := initialMemory.store origin [0xF3, 0x0A], delay := 1, sound := 5 }

def hearing : List Operation :=
  [.tick, .act (.press 7), .act (.release 7), .tick, .act (.press 11), .act (.press 4)]

theorem listening_takes_lowest :
    let heard := (Runner.new listening 10).performAll hearing
    listening.AwaitsKey 3 ∧ listening.keypad.pressed = [] ∧
      (∀ t : Timer, t.InRange listening) ∧ listening.step.value = .ok (.awaitKey 3, listening) ∧
      heard.machine.delay = 0 ∧ heard.machine.sound = 3 ∧ heard.fault = none ∧
      ∃ after, heard.machine.step.value = .ok (.awaitKey 3, after) ∧ after.pc = 0x202 ∧
        after.registers.get 3 = 4 := by
  intro heard
  have awaits : listening.AwaitsKey 3 :=
    ⟨by decide, initialMemory.word_store origin 0xF3 0x0A⟩
  have quiet : listening.keypad.pressed = [] := by decide
  have timers : ∀ t : Timer, t.InRange listening := by
    intro t
    cases t <;> decide
  have wait : Wait listening.keypad hearing 2 (Keypad.ofCodes [11, 4]) := by
    apply Wait.tick quiet
    apply Wait.act (.press 7)
    apply Wait.act (.release 7)
    apply Wait.tick (by decide)
    apply Wait.act (.press 11)
    apply Wait.act (.press 4)
    exact .done _
  obtain ⟨step, stalls⟩ := key_wait_stalls awaits quiet
  obtain ⟨-, waits⟩ := stalls (Runner.new listening 10) rfl rfl rfl timers
  obtain ⟨machine, fault, ends⟩ := waits hearing 2 _ wait
  obtain ⟨key, held, least, taken⟩ := ends ⟨4, by decide⟩
  have lowest : ∀ key : Key, (Keypad.ofCodes [11, 4]).Holds key.val → (key.val : Int) ≤ 4 →
      key = 4 := by decide
  obtain rfl := lowest key held (least 4 (by decide))
  exact ⟨awaits, quiet, timers, step, congrArg Machine.delay machine,
    congrArg Machine.sound machine, fault, _, taken, rfl, rfl⟩

end Machine

end Chip8
