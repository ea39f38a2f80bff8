import Chip8.Program
import Chip8.Proofs.Batches
import Chip8.Proofs.Likeness
import Chip8.Proofs.Sessions

/-!
Work in a window against work without one. Without keys a pass of a window is a tick of the window's
runner, but for the request for a picture (`Window.pass_keyless`), so a session is one tick for
every pass. Work without a window for the instructions of whole ticks is the same ticks
(`Runner.headless_whole`).

The two ways to run the program differ in the length of the ticks: a window takes it from the clock,
and work without a window is always in ticks of ten instructions (`Program.window_agrees_iff`).
-/

namespace Chip8

def Event.isKey : Event → Bool
  | .keyDown _ | .keyUp _ => true
  | .close | .other => false

namespace Runner

variable {r : Runner}

/-! ### Whole ticks without a window -/

theorem Alike.shown (r : Runner) : Alike r.shown r :=
  ⟨rfl, rfl⟩

theorem advance_unbroken (wf : r.machine.WellFormed) (count : Int) :
    (r.advance count).broken = none := by
  unfold advance
  split
  · rfl
  · exact batch_unbroken wf _

theorem headless_unbroken {m : Machine} (wf : m.WellFormed) (steps cycles : Int) :
    (headless m steps cycles).broken = none := by
  simp only [headless, Stint.andThen]
  split
  · exact advance_unbroken (ticks_wellFormed (r := new m cycles) wf _) _
  · exact ticks_unbroken (r := new m cycles) wf _

/-- A runner at a pace below 1 works at the pace 1. -/
theorem new_max_one (m : Machine) (cycles : Int) : new m (max 1 cycles) = new m cycles := by
  have same : max 1 (max 1 cycles).toNat = max 1 cycles.toNat := by omega
  simp only [new, same]

/-- Work without a window for a number of whole ticks is those ticks. -/
theorem headless_whole (m : Machine) {cycles : Int} (positive : 1 ≤ cycles) (k : Nat) :
    Alike (headless m (k * cycles) cycles).runner (ticks k (new m cycles)).runner := by
  rw [headless_eq_ticks m positive k]
  exact .refl _

end Runner

namespace Window

variable {w : Window}

/-! ### Sessions without keys -/

/-- Events without keys do nothing but perhaps end the session. -/
theorem handleAll_keyless (tree : FileTree) {events : List Event}
    (keyless : ∀ e ∈ events, e.isKey = false) :
    ∃ quit, w.handleAll tree events = ({ w with quit := quit }, none) := by
  induction events generalizing w with
  | nil => exact ⟨w.quit, rfl⟩
  | cons event rest ih =>
      have first := keyless event List.mem_cons_self
      have others := fun e mem => keyless e (List.mem_cons_of_mem _ mem)
      cases event with
      | keyDown name | keyUp name => cases first
      | close => exact ih (w := { w with quit := true }) others
      | other => exact ih others

/-- A pass without keys is a tick, but for the request for a picture. -/
theorem pass_keyless (tree : FileTree) (wf : w.machine.WellFormed) {events : List Event}
    (keyless : ∀ e ∈ events, e.isKey = false) :
    ∃ done, w.pass tree events = .ok done ∧
      Runner.Alike done.window.runner w.runner.tick.runner ∧
      done.window.runner.cycles = w.runner.cycles := by
  obtain ⟨quit, handled⟩ := handleAll_keyless (w := w) tree keyless
  have unbroken : w.runner.tick.broken = none := Runner.tick_unbroken wf
  obtain ⟨done, worked⟩ : ∃ done, { w with quit := quit }.work = .ok done := by
    simp only [work, unbroken]
    exact ⟨_, rfl⟩
  have length := Runner.tick_cycles w.runner
  refine ⟨done, by simp only [pass, handled, worked], ?_⟩
  rw [(work_passed worked).runner]
  split
  · exact ⟨.shown _, length⟩
  · exact ⟨.refl _, length⟩

/-- A session without keys comes to its end, and its machine has worked for one tick in every
pass. -/
theorem session_keyless (tree : FileTree) (wf : w.machine.WellFormed) {batches : List (List Event)}
    (keyless : ∀ events ∈ batches, ∀ e ∈ events, e.isKey = false) :
    let session := w.session tree batches
    session.failure = none ∧
      Runner.Alike session.window.runner
        (Runner.ticks session.passes.length w.runner).runner := by
  induction batches generalizing w with
  | nil =>
      obtain ⟨done, passed, alike, -⟩ :=
        pass_keyless tree wf (show ∀ e ∈ [Event.close], e.isKey = false by simp [Event.isKey])
      unfold session
      split
      · exact ⟨rfl, .refl _⟩
      · rw [passed]
        refine ⟨rfl, ?_⟩
        rw [List.length_singleton, Runner.ticks_succ wf]
        exact alike
  | cons events rest ih =>
      have others := fun later mem => keyless later (List.mem_cons_of_mem _ mem)
      obtain ⟨done, passed, alike, length⟩ :=
        pass_keyless tree wf (keyless events List.mem_cons_self)
      have ticked := Runner.tick_wellFormed wf
      have sameLength := length.trans (Runner.tick_cycles w.runner).symm
      have wf' : done.window.machine.WellFormed := alike.symm.wellFormed ticked
      obtain ⟨failure, later⟩ := ih wf' others
      unfold session
      split
      · exact ⟨rfl, .refl _⟩
      · simp only [passed]
        refine ⟨failure, ?_⟩
        rw [List.length_cons, Runner.ticks_succ wf]
        exact later.trans (alike.ticks sameLength wf' _)

end Window

namespace Program

variable {tree : FileTree} {toolkit : Toolkit} {noise : Noise} {sources : Nat → Noise}
  {audible : Bool} {words : List String} {s : Start}

/-! ### Reports -/

/-- Work that comes to a result came to one in its first part and went on from there. -/
theorem ok_of_bind {ε α β : Type} {first : Except ε α} {rest : α → Except ε β} {b : β}
    (done : first >>= rest = .ok b) : ∃ a, first = .ok a ∧ rest a = .ok b := by
  cases first with
  | error e => cases done
  | ok a => exact ⟨a, rfl, done⟩

/-- A run that can start has settings and a machine with the program. -/
theorem start_eq_ok_iff :
    start tree noise words = .ok s ↔
      CommandLine.parse words = .ok s.settings ∧
        ProgramFile.machine tree s.settings.program s.settings.mode noise =
          ⟨.ok s.machine, s.notices⟩ := by
  unfold start
  cases parsed : CommandLine.parse words with
  | error stop => cases stop <;> simp
  | ok settings =>
      simp only [Except.ok.injEq]
      constructor
      · intro begun
        split at begun
        · rename_i m made
          cases begun
          refine ⟨rfl, ?_⟩
          rw [← made]
        · cases begun
        · cases begun
      · rintro ⟨rfl, made⟩
        rw [made]

/-- A machine with a program from a file is well-formed. -/
theorem start_wellFormed (begun : start tree noise words = .ok s) : s.machine.WellFormed := by
  obtain ⟨-, made⟩ := start_eq_ok_iff.mp begun
  have value := congrArg Reported.value made
  unfold ProgramFile.machine at value
  split at value
  · cases value
  · split at value
    · cases value
    · rename_i m loaded
      cases value
      exact ((Machine.fresh_inRange _ _).load loaded).toWellFormed

/-- Two reports agree: they end alike, and their runners are alike. -/
def Report.Agrees (a b : Report) : Prop :=
  a.ending = b.ending ∧ ∃ r r', a.runner = some r ∧ b.runner = some r' ∧ r.Alike r'

/-- A report tells of work that came to its end with a runner; the exit code tells whether a fault
has stopped the machine. -/
structure Report.EndsWith (report : Report) (r : Runner) : Prop where
  runner : report.runner = some r
  ending : report.ending = .exit (if r.fault.isSome then 1 else 0)

theorem ended_endsWith (r : Runner) (out : List String) : (ended r out).EndsWith r := by
  unfold ended
  cases fault : r.fault with
  | none => exact ⟨rfl, by rw [fault]; rfl⟩
  | some f => exact ⟨rfl, by rw [fault]; rfl⟩

/-- Reports of work that came to its end agree exactly if the runners are alike. -/
theorem Report.EndsWith.agrees_iff {a b : Report} {r r' : Runner} (first : a.EndsWith r)
    (second : b.EndsWith r') : a.Agrees b ↔ r.Alike r' := by
  constructor
  · rintro ⟨-, x, y, sameFirst, sameSecond, alike⟩
    obtain rfl : r = x := Option.some.inj (first.runner.symm.trans sameFirst)
    obtain rfl : r' = y := Option.some.inj (second.runner.symm.trans sameSecond)
    exact alike
  · intro alike
    refine ⟨?_, r, r', first.runner, second.runner, alike⟩
    rw [first.ending, second.ending, alike.fault]

/-- A window is opened on a runner of the machine, at the pace of the clock. -/
theorem window_ok {opening : Window.Pass} {clock : Int} (clocked : s.settings.clock = some clock)
    (opened : window tree toolkit sources audible s = .ok opening) :
    opening.window.machine = s.machine ∧ opening.window.runner.fault = none ∧
      opening.window.runner.cycles =
        (Runner.new s.machine (clock / Runner.ticksPerSecond)).cycles := by
  simp only [window, clocked] at opened
  obtain ⟨_, pace, opened⟩ := ok_of_bind opened
  cases pace
  obtain ⟨programs, -, opened⟩ := ok_of_bind opened
  obtain ⟨scale, -, opened⟩ := ok_of_bind opened
  obtain ⟨frame, -, opened⟩ := ok_of_bind opened
  obtain ⟨samples, -, opened⟩ := ok_of_bind opened
  cases opened
  cases samples <;> exact ⟨rfl, rfl, rfl⟩

/-- Without a window the machine works for the number of steps in ticks of the usual length,
whatever the clock says. -/
theorem headless_endsWith {steps : Int} (wf : s.machine.WellFormed)
    (given : s.settings.steps = some steps) :
    (headless s).EndsWith (Runner.headless s.machine steps Runner.defaultCycles).runner := by
  have unbroken := Runner.headless_unbroken wf steps Runner.defaultCycles
  simp only [headless, given, Program.given, unbroken]
  exact ended_endsWith _ _

/-- In a window without keys the machine works for a tick of the clock's pace in every pass. -/
theorem windowed_endsWith (tree : FileTree) (toolkit : Toolkit) (sources : Nat → Noise)
    (audible : Bool) {batches : List (List Event)} {clock : Int} (wf : s.machine.WellFormed)
    (keyless : ∀ events ∈ batches, ∀ e ∈ events, e.isKey = false)
    (clocked : s.settings.clock = some clock)
    (works : 1 ≤ (windowed tree toolkit sources audible batches s).passes.length) :
    let report := windowed tree toolkit sources audible batches s
    let pace := clock / Runner.ticksPerSecond
    ∃ r, report.EndsWith r ∧
      r.Alike (Runner.ticks report.passes.length (Runner.new s.machine pace)).runner := by
  unfold windowed at works ⊢
  cases opened : window tree toolkit sources audible s with
  | error e =>
      rw [opened] at works
      cases works
  | ok opening =>
      obtain ⟨machine, fault, length⟩ := window_ok clocked opened
      have wf' : opening.window.machine.WellFormed := machine ▸ wf
      obtain ⟨failure, alike⟩ := Window.session_keyless tree wf' keyless
      have start : opening.window.runner.Alike
          (Runner.new s.machine (clock / Runner.ticksPerSecond)) :=
        ⟨congrArg Machine.settled machine, fault⟩
      refine ⟨(opening.window.session tree batches).window.runner, ?_, ?_⟩
      · obtain ⟨runner, ending⟩ := ended_endsWith
          (opening.window.session tree batches).window.runner
          (logged s.settings (opening.window.session tree batches).window.runner.journal.reverse)
        constructor
        · simp only [closed, failure, runner]
        · simp only [closed, failure, ending]
      · exact alike.trans (start.ticks length wf' _)

/-- Work in a window and work without one. A window without keys is open for some passes; a second
run without a window has the same settings and does the instructions of as many ticks of the clock's
pace. The window ends as work without a window in ticks of that pace does. The second run does not
look at the clock: it works in ticks of ten instructions. So the two agree exactly if the length of
the ticks makes no difference to this work, and they agree on all work at a pace of ten. The toolkit
has no part in it but that the window opens. -/
theorem window_agrees_iff (tree : FileTree) (toolkit : Toolkit) (sources : Nat → Noise)
    (audible : Bool) (batches : List (List Event)) (words words' : List String) (s : Start)
    (clock : Int) (begun : start tree (sources 0) words = .ok s)
    (inWindow : s.settings.headless = false)
    (clocked : s.settings.clock = some clock)
    (keyless : ∀ events ∈ batches, ∀ e ∈ events, e.isKey = false) :
    let report := run tree toolkit sources audible batches words
    let k := report.passes.length
    let c := max 1 (clock / 60)
    let report' := run tree toolkit sources audible batches words'
    let work (cycles : Int) := (Runner.headless s.machine (k * c) cycles).runner
    1 ≤ k →
    CommandLine.parse words' =
      .ok { s.settings with headless := true, steps := some (k * c) } →
    (∃ r, report.runner = some r ∧ r.Alike (work c)) ∧
      (report.Agrees report' ↔ (work c).Alike (work 10)) ∧
      (c = 10 → report.Agrees report') := by
  intro report k c report' work works parsed'
  have wf := start_wellFormed begun
  have windowedRun :
      report = windowed tree toolkit (fun k => sources (k + 1)) audible batches s := by
    simp only [report, run, begun, inWindow, Bool.false_eq_true, if_false]
  obtain ⟨r, ended, alike⟩ : ∃ r, report.EndsWith r ∧ r.Alike (work c) := by
    obtain ⟨r, ended, alike⟩ :=
      windowed_endsWith tree toolkit (fun k => sources (k + 1)) audible wf keyless clocked
        (windowedRun ▸ works)
    rw [← windowedRun] at ended alike
    rw [← Runner.new_max_one] at alike
    have whole := Runner.headless_whole s.machine (Int.le_max_left 1 (clock / 60)) k
    exact ⟨r, ended, alike.trans whole.symm⟩
  have ended' : report'.EndsWith (work 10) := by
    let s' := { s with settings := { s.settings with headless := true, steps := some (k * c) } }
    have begun' : start tree (sources 0) words' = .ok s' :=
      start_eq_ok_iff.mpr ⟨parsed', (start_eq_ok_iff.mp begun).2⟩
    have headlessRun : report' = headless s' := by
      simp only [report', run, begun']
      rfl
    rw [headlessRun]
    exact headless_endsWith wf rfl
  have exact : report.Agrees report' ↔ (work c).Alike (work 10) :=
    (ended.agrees_iff ended').trans ⟨alike.symm.trans, alike.trans⟩
  refine ⟨⟨r, ended.runner, alike⟩, exact, ?_⟩
  intro usual
  exact exact.mpr (usual ▸ .refl _)

theorem eq_ok_of_toOption {ε α : Type} {outcome : Except ε α} {a : α}
    (seen : outcome.toOption = some a) : outcome = .ok a := by
  cases outcome with
  | error e => cases seen
  | ok b =>
      cases seen
      rfl

/-- A run starts with the settings that it is seen to start with. -/
theorem start_of_settings {settings : Settings}
    (seen : (start tree noise words).toOption.map (·.settings) = some settings) :
    ∃ s, start tree noise words = .ok s ∧ s.settings = settings := by
  obtain ⟨s, begun, same⟩ := Option.map_eq_some_iff.mp seen
  exact ⟨s, eq_ok_of_toOption begun, same⟩

def fading : FileTree :=
  ⟨[], [(["fade"], .file [0x60, 0x05, 0xF0, 0x15, 0x12, 0x04])]⟩

theorem fading_agrees_at_usual_pace :
    (run fading .obliging Window.silence true [[]] ["fade"]).passes.length = 2 ∧
      (run fading .obliging Window.silence true [[]] ["fade"]).Agrees
        (run fading .obliging Window.silence true [[]]
          ["fade", "--headless", "--steps", "20"]) := by
  have passes : (run fading .obliging Window.silence true [[]] ["fade"]).passes.length = 2 := by
    decide +kernel
  obtain ⟨s, begun, settings⟩ := start_of_settings
    (show (start fading .silent ["fade"]).toOption.map (·.settings) = some { program := "fade" } by
      decide +kernel)
  have keyless : ∀ events ∈ ([[]] : List (List Event)), ∀ e ∈ events, e.isKey = false := by simp
  have parsed : CommandLine.parse ["fade", "--headless", "--steps", "20"] =
      .ok { s.settings with headless := true, steps := some 20 } := by
    rw [settings]
    exact eq_ok_of_toOption (by decide +kernel)
  obtain ⟨-, -, usual⟩ := window_agrees_iff fading .obliging Window.silence true [[]] ["fade"]
    ["fade", "--headless", "--steps", "20"] s 600 begun (by rw [settings]) (by rw [settings])
    keyless (by rw [passes]; decide) (by rw [passes]; exact parsed)
  exact ⟨passes, usual rfl⟩

/-- Work in a window and work without one do not always agree: at a pace of two instructions the
timer of this program has been counted down twice behind four instructions, and without a window it
has not been counted down at all. -/
theorem clock_is_lost_without_window :
    ¬ ∀ (tree : FileTree) (toolkit : Toolkit) (sources : Nat → Noise) (audible : Bool)
        (batches : List (List Event)) (words words' : List String) (s : Start) (clock : Int),
        start tree (sources 0) words = .ok s → s.settings.headless = false →
        s.settings.clock = some clock →
        (∀ events ∈ batches, ∀ e ∈ events, e.isKey = false) →
          let report := run tree toolkit sources audible batches words
          let k := report.passes.length
          let c := max 1 (clock / 60)
          1 ≤ k →
          CommandLine.parse words' =
            .ok { s.settings with headless := true, steps := some (k * c) } →
            report.Agrees (run tree toolkit sources audible batches words') := by
  intro always
  have passes : (run fading .obliging Window.silence false [[]]
      ["fade", "--clock", "120"]).passes.length = 2 := by decide +kernel
  have fades : (run fading .obliging Window.silence false [[]]
      ["fade", "--clock", "120"]).runner.map (·.machine.delay) = some 3 := by decide +kernel
  have stays : (run fading .obliging Window.silence false [[]]
      ["fade", "--clock", "120", "--headless", "--steps", "4"]).runner.map
      (·.machine.delay) = some 5 := by decide +kernel
  obtain ⟨s, begun, settings⟩ := start_of_settings
    (show (start fading .silent ["fade", "--clock", "120"]).toOption.map (·.settings) =
      some { program := "fade", clock := some 120 } by decide +kernel)
  have parsed : CommandLine.parse ["fade", "--clock", "120", "--headless", "--steps", "4"] =
      .ok { s.settings with headless := true, steps := some 4 } := by
    rw [settings]
    exact eq_ok_of_toOption (by decide +kernel)
  have keyless : ∀ events ∈ ([[]] : List (List Event)), ∀ e ∈ events, e.isKey = false := by simp
  obtain ⟨-, r, r', first, second, alike⟩ := always fading .obliging Window.silence false [[]]
    ["fade", "--clock", "120"] ["fade", "--clock", "120", "--headless", "--steps", "4"] s 120 begun
    (by rw [settings]) (by rw [settings]) keyless (by rw [passes]; decide)
    (by rw [passes]; exact parsed)
  rw [first] at fades
  rw [second] at stays
  have same := congrArg Machine.delay alike.machine
  change r.machine.delay = r'.machine.delay at same
  have three : r.machine.delay = 3 := Option.some.inj fades
  have five : r'.machine.delay = 5 := Option.some.inj stays
  rw [three, five] at same
  cases same

end Program

end Chip8
