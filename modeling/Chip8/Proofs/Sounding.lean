import Chip8.Proofs.Ranges
import Chip8.Proofs.Sessions

/-!
The sound gate through time. A window that has a speaker and looks at a timer that is not negative
turns the tone on or off exactly if it is not yet as the timer wants it (`Window.gate_eq`). From
this one step come the orders of any number of looks: they take turns, the last of them tells how
the tone is, and the tone is turned on as often as the timer starts from zero.

In a session the gate looks at the machine's sound timer once in every pass, behind the tick. The
timers of a machine that started from a program are never negative, whatever events change or stop
it (`Machine.InRange`), and nothing behind the gate touches the timer, so every pass leaves the tone
as the timer wants it (`Window.pass_sounds`).
-/

namespace Chip8

namespace Window

variable {tree : FileTree} {w next : Window} {timers : List Int} {t : Int}

/-! ### The gate -/

def turned (w : Window) (on : Bool) : Window :=
  { w with beeping := on }

def switch (on : Bool) : Order :=
  if on then .play endless else .stop

/-- The orders that take the tone from one state to another. -/
def switches (before now : Bool) : List Order :=
  if before = now then [] else [switch now]

/-- The window after the gate has looked at a number of timers in a row, and all its orders. -/
def gateAll (w : Window) : List Int → Window × List Order
  | [] => (w, [])
  | t :: rest =>
      let (next, orders) := w.gate t
      let (last, later) := gateAll next rest
      (last, orders ++ later)

/-- Without a speaker the gate does nothing. -/
theorem gate_of_inaudible (silent : w.audible = false) (t : Int) : w.gate t = (w, []) := by
  simp [gate, silent]

/-- With a speaker the gate takes the tone to where the timer wants it. -/
theorem gate_eq (audible : w.audible = true) (counts : 0 ≤ t) :
    w.gate t = (w.turned (decide (0 < t)), switches w.beeping (decide (0 < t))) := by
  have kept : w.turned w.beeping = w := rfl
  rcases Int.lt_or_eq_of_le counts with runs | rfl
  · have rest : t ≠ 0 := by omega
    cases on : w.beeping with
    | false => simp [gate, turned, switches, switch, audible, on, runs]
    | true =>
        rw [on] at kept
        simp [gate, switches, audible, on, runs, rest, kept]
  · cases on : w.beeping with
    | false =>
        rw [on] at kept
        simp [gate, switches, audible, on, kept]
    | true => simp [gate, turned, switches, switch, audible, on]

/-! ### Timers in a row -/

theorem gateAll_append (w : Window) (first second : List Int) :
    w.gateAll (first ++ second) =
      ((gateAll (w.gateAll first).1 second).1,
        (w.gateAll first).2 ++ (gateAll (w.gateAll first).1 second).2) := by
  induction first generalizing w with
  | nil => rfl
  | cons t rest ih => simp only [List.cons_append, gateAll, ih, List.append_assoc]

theorem gateAll_of_inaudible (silent : w.audible = false) (timers : List Int) :
    w.gateAll timers = (w, []) := by
  induction timers with
  | nil => rfl
  | cons t rest ih => simp only [gateAll, gate_of_inaudible silent, ih, List.nil_append]

/-- With a speaker the first timer decides how the tone is for the others. -/
theorem gateAll_cons (audible : w.audible = true) (counts : 0 ≤ t) (rest : List Int) :
    w.gateAll (t :: rest) =
      (((w.turned (decide (0 < t))).gateAll rest).1,
        switches w.beeping (decide (0 < t)) ++
          ((w.turned (decide (0 < t))).gateAll rest).2) := by
  simp only [gateAll, gate_eq audible counts]

theorem gateAll_audible (audible : w.audible = true) (counts : ∀ t ∈ timers, 0 ≤ t) :
    (w.gateAll timers).1.audible = true := by
  induction timers generalizing w with
  | nil => exact audible
  | cons t rest ih =>
      obtain ⟨first, later⟩ := List.forall_mem_cons.mp counts
      rw [gateAll_cons audible first]
      exact ih audible later

/-- The orders take turns. -/
theorem gateAll_alternates (audible : w.audible = true) (counts : ∀ t ∈ timers, 0 ≤ t) {k : Nat}
    {o : Order} (kth : (w.gateAll timers).2[k]? = some o) :
    o = switch (decide (k % 2 = 0) ^^ w.beeping) := by
  induction timers generalizing w k with
  | nil => cases kth
  | cons t rest ih =>
      obtain ⟨first, later⟩ := List.forall_mem_cons.mp counts
      have onward : ∀ {j : Nat}, ((w.turned (decide (0 < t))).gateAll rest).2[j]? = some o →
          o = switch (decide (j % 2 = 0) ^^ decide (0 < t)) :=
        fun jth => ih (w := w.turned (decide (0 < t))) audible later jth
      rw [gateAll_cons audible first, switches] at kth
      by_cases same : w.beeping = decide (0 < t)
      · rw [if_pos same] at kth
        rw [same]
        exact onward kth
      · -- The tone changes, and with it the turn of every later order.
        rw [if_neg same] at kth
        have changed : w.beeping = !decide (0 < t) := Bool.eq_not_of_ne same
        cases k with
        | zero =>
            cases kth
            simp [changed]
        | succ k =>
            have turn : decide ((k + 1) % 2 = 0) = !decide (k % 2 = 0) := by
              rw [← decide_not, decide_eq_decide]
              omega
            rw [onward kth, turn, changed, Bool.not_xor_not]

/-- The last order tells how the tone is; where there is none, it is as it was. -/
theorem gateAll_last (audible : w.audible = true) (counts : ∀ t ∈ timers, 0 ≤ t) :
    (w.gateAll timers).2.getLast?.getD (switch w.beeping) =
      switch (w.gateAll timers).1.beeping := by
  induction timers generalizing w with
  | nil => rfl
  | cons t rest ih =>
      obtain ⟨first, later⟩ := List.forall_mem_cons.mp counts
      have onward := ih (w := w.turned (decide (0 < t))) audible later
      have one : (switches w.beeping (decide (0 < t))).getLast?.getD (switch w.beeping) =
          switch (decide (0 < t)) := by
        by_cases same : w.beeping = decide (0 < t)
        · simp [switches, same]
        · simp [switches, same]
      rw [gateAll_cons audible first, List.getLast?_append, Option.getD_or, one]
      exact onward

/-- Behind a number of timers the tone is on exactly if the last of them runs. -/
theorem gateAll_concat (audible : w.audible = true) (counts : ∀ t ∈ timers, 0 ≤ t)
    (last : 0 ≤ t) : (w.gateAll (timers ++ [t])).1.beeping = decide (0 < t) := by
  rw [gateAll_append, gateAll_cons (gateAll_audible audible counts) last]
  rfl

/-- The tone is turned on as often as the timer starts from zero. -/
theorem gateAll_count (audible : w.audible = true) (counts : ∀ t ∈ timers, 0 ≤ t) {before : Int}
    (ran : 0 ≤ before) (on : w.beeping = decide (0 < before)) :
    (w.gateAll timers).2.count (.play endless) =
      ((before :: timers).zip timers).countP (fun (before, now) => before = 0 ∧ 0 < now) := by
  induction timers generalizing w before with
  | nil => rfl
  | cons t rest ih =>
      obtain ⟨first, later⟩ := List.forall_mem_cons.mp counts
      have onward := ih (w := w.turned (decide (0 < t))) audible later first rfl
      rw [gateAll_cons audible first, List.count_append, onward, List.zip_cons_cons,
        List.countP_cons, Nat.add_comm]
      congr 1
      rw [on]
      by_cases zero : before = 0
      · by_cases runs : 0 < t <;> simp [switches, switch, zero, runs]
      · have ran : 0 < before := by omega
        by_cases runs : 0 < t <;> simp [switches, switch, zero, ran, runs]

/-! ### Passes -/

/-- Drawing the picture touches neither the tone nor the sound timer. -/
theorem drawIfDue_keeps (w : Window) :
    w.drawIfDue.1.audible = w.audible ∧ w.drawIfDue.1.beeping = w.beeping ∧
      w.drawIfDue.1.machine.sound = w.machine.sound ∧
      (w.machine.InRange → w.drawIfDue.1.machine.InRange) ∧
      ∀ o ∈ w.drawIfDue.2, o.isDrawing = true := by
  rw [drawIfDue_eq]
  split
  · refine ⟨rfl, rfl, rfl, fun range => { range with }, ?_⟩
    intro o mem
    obtain ⟨drawing, -, rfl⟩ := List.mem_map.mp mem
    rfl
  · exact ⟨rfl, rfl, rfl, id, fun o mem => absurd mem List.not_mem_nil⟩

theorem Handles.keeps (handles : w.Handles next) :
    next.audible = w.audible ∧ next.beeping = w.beeping ∧
      (w.machine.InRange → next.machine.InRange) := by
  cases handles with
  | kept journal quit => exact ⟨rfl, rfl, id⟩
  | acted action => exact ⟨rfl, rfl, fun range => range.act action⟩
  | toggled => exact ⟨rfl, rfl, fun range => { range with }⟩
  | switched caption position accepted =>
      exact ⟨rfl, rfl, fun _ => { Runner.switchProgram_inRange accepted with }⟩

/-- With a speaker a pass leaves the tone as the sound timer wants it. -/
theorem pass_sounds (audible : w.audible = true) (range : w.machine.InRange) {events : List Event}
    {done : Pass} (passed : w.pass tree events = .ok done) :
    (done.window.audible = true ∧ done.window.machine.InRange) ∧
      (done.window.beeping = true ↔ 0 < done.window.machine.sound) := by
  obtain ⟨handled, result, worked⟩ := pass_ok passed
  obtain ⟨audible, range⟩ : handled.audible = true ∧ handled.machine.InRange := by
    refine handleAll_keeps (P := fun w => w.audible = true ∧ w.machine.InRange) ?_
      ⟨audible, range⟩ result
    intro w next ⟨audible, range⟩ handles
    obtain ⟨same, -, stays⟩ := handles.keeps
    exact ⟨same.trans audible, stays range⟩
  -- Whether the tick counts the timer, leaves it or stops at a fault, the timer is not negative.
  have ticked : handled.ticked.machine.InRange :=
    Runner.tick_keeps (fun _ range => range.stepped) (fun _ range => range.countDown) range
  have hears : handled.ticked.audible = true := audible
  obtain ⟨-, window, -⟩ := work_gated worked
  rw [gate_eq hears ticked.sound.1] at window
  obtain ⟨sameAudible, sameBeeping, sameSound, stays, -⟩ :=
    drawIfDue_keeps (handled.ticked.turned (decide (0 < handled.ticked.machine.sound)))
  rw [window]
  refine ⟨⟨sameAudible.trans audible, stays ticked⟩, ?_⟩
  rw [sameBeeping, sameSound]
  exact decide_eq_true_iff

/-- Without a speaker a pass gives orders to the screen only. -/
theorem pass_silent (inaudible : w.audible = false) (quiet : w.beeping = false)
    {events : List Event} {done : Pass} (passed : w.pass tree events = .ok done) :
    (done.window.audible = false ∧ done.window.beeping = false) ∧
      ∀ o ∈ done.orders, o.isDrawing = true := by
  obtain ⟨handled, result, worked⟩ := pass_ok passed
  obtain ⟨inaudible, quiet⟩ : handled.audible = false ∧ handled.beeping = false := by
    refine handleAll_keeps (P := fun w => w.audible = false ∧ w.beeping = false) ?_
      ⟨inaudible, quiet⟩ result
    intro w next ⟨inaudible, quiet⟩ handles
    obtain ⟨sameAudible, sameBeeping, -⟩ := handles.keeps
    exact ⟨sameAudible.trans inaudible, sameBeeping.trans quiet⟩
  have deaf : handled.ticked.audible = false := inaudible
  obtain ⟨-, window, orders⟩ := work_gated worked
  rw [gate_of_inaudible deaf] at window orders
  obtain ⟨sameAudible, sameBeeping, -, -, draws⟩ := drawIfDue_keeps handled.ticked
  rw [window, orders]
  exact ⟨⟨sameAudible.trans inaudible, sameBeeping.trans quiet⟩, draws⟩

/-- With a speaker every pass of a session leaves the tone as the sound timer wants it. -/
theorem session_sounds (audible : w.audible = true) (range : w.machine.InRange)
    {batches : List (List Event)} {done : Pass} (mem : done ∈ (w.session tree batches).passes) :
    done.window.beeping = true ↔ 0 < done.window.machine.sound :=
  session_gives (P := fun w => w.audible = true ∧ w.machine.InRange)
    (Q := fun done => done.window.beeping = true ↔ 0 < done.window.machine.sound)
    ⟨audible, range⟩ (fun _ _ _ ⟨audible, range⟩ passed => pass_sounds audible range passed) mem

/-- Without a speaker no pass of a session turns the tone on or off. -/
theorem session_silent (inaudible : w.audible = false) (quiet : w.beeping = false)
    {batches : List (List Event)} {done : Pass} (mem : done ∈ (w.session tree batches).passes) :
    done.window.beeping = false ∧ ∀ o ∈ done.orders, o.isDrawing = true :=
  session_gives (P := fun w => w.audible = false ∧ w.beeping = false)
    (Q := fun done => done.window.beeping = false ∧ ∀ o ∈ done.orders, o.isDrawing = true)
    ⟨inaudible, quiet⟩
    (fun _ _ _ ⟨inaudible, quiet⟩ passed => by
      obtain ⟨⟨inaudible, quiet⟩, draws⟩ := pass_silent inaudible quiet passed
      exact ⟨⟨inaudible, quiet⟩, quiet, draws⟩)
    mem

/-- The sound gate follows the timer. Looks at timers that are not negative, by a window with a
speaker whose tone is off, give orders that take turns, starting with one that plays without an end.
After each look the tone is on exactly if that timer runs, and exactly if the last order so far is
to play. The orders to play are as many as the timers that run where the one before, or zero before
the first, did not. Without a speaker there are no such orders and the tone stays off. In a session
with a speaker every pass leaves the tone on exactly if the machine's sound timer runs, for every
program, every list of programs to go on to and all events. -/
theorem sound_gate_follows_timer :
    (∀ w : Window, w.audible = true → w.beeping = false →
      ∀ timers : List Int, (∀ t ∈ timers, 0 ≤ t) →
        let orders := (w.gateAll timers).2
        (∀ (k : Nat) (o : Order), orders[k]? = some o →
          o = if k % 2 = 0 then .play endless else .stop) ∧
        (∀ before t later, timers = before ++ t :: later →
          let now := w.gateAll (before ++ [t])
          (now.1.beeping = true ↔ 0 < t) ∧ (now.2.getLast? = some (.play endless) ↔ 0 < t)) ∧
        orders.count (.play endless) =
          ((0 :: timers).zip timers).countP fun (before, now) => before = 0 ∧ 0 < now) ∧
    (∀ w : Window, w.audible = false → w.beeping = false → ∀ timers : List Int,
      (w.gateAll timers).2 = [] ∧ (w.gateAll timers).1.beeping = false) ∧
    ∀ (mode : Mode) (noise : Noise) (program : List Byte) (runner : Runner),
      Machine.ofProgram mode noise program = .ok runner.machine →
        ∀ (frame : Frame) (programs : List String) (sources : Nat → Noise) (tree : FileTree)
          (batches : List (List Event)),
          (∀ (samples : List Int),
            let heard := (opened runner frame programs sources (some samples)).1
            ∀ done ∈ (heard.session tree batches).passes,
              (done.window.beeping = true ↔ 0 < done.window.machine.sound)) ∧
          let silent := (opened runner frame programs sources none).1
          ∀ done ∈ (silent.session tree batches).passes,
            done.window.beeping = false ∧ ∀ o ∈ done.orders, o.isDrawing = true := by
  refine ⟨?_, ?_, ?_⟩
  · intro w audible off timers counts orders
    refine ⟨?_, ?_, gateAll_count audible counts (Int.le_refl 0) off⟩
    · intro k o kth
      rw [gateAll_alternates audible counts kth, off, Bool.xor_false, switch]
      simp
    · rintro before t later rfl now
      have counted : ∀ s ∈ before ++ [t], 0 ≤ s := by
        intro s mem
        refine counts s ?_
        rw [List.append_cons]
        exact List.mem_append_left later mem
      obtain ⟨earlier, last⟩ := List.forall_mem_append.mp counted
      have on : now.1.beeping = decide (0 < t) :=
        gateAll_concat audible earlier (List.forall_mem_singleton.mp last)
      have order : now.2.getLast?.getD (switch false) = switch (decide (0 < t)) := by
        rw [← on, ← off]
        exact gateAll_last audible counted
      refine ⟨by rw [on, decide_eq_true_iff], ?_⟩
      cases shape : now.2.getLast? with
      | none =>
          rw [shape] at order
          by_cases runs : 0 < t <;> simp_all [switch]
      | some o =>
          rw [shape] at order
          by_cases runs : 0 < t <;> simp_all [switch]
  · intro w silent off timers
    rw [gateAll_of_inaudible silent]
    exact ⟨rfl, off⟩
  · intro mode noise program runner made frame programs sources tree batches
    have range : runner.machine.InRange := (Machine.fresh_inRange mode noise).load made
    constructor
    · intro samples heard done mem
      refine session_sounds rfl ?_ mem
      exact range
    · intro silent done mem
      exact session_silent rfl rfl mem

def humming : Machine :=
  { Machine.fresh {} .silent with
    memory := Machine.initialMemory.store Machine.origin [0x60, 0x02, 0xF0, 0x18, 0x12, 0x04] }

/-- Looks at five timers in a row play twice, and a session of the machine plays behind its first
pass and not behind its second. -/
theorem humming_is_heard :
    let opening := opened (.new humming 10) tenfold [] silence (some [])
    (opening.1.gateAll [2, 1, 0, 0, 3]).2.count (.play endless) = 2 ∧
      ∃ first last, (opening.1.session ⟨[], []⟩ [[]]).passes = [first, last] ∧
        first.window.beeping = true ∧ last.window.beeping = false := by
  intro opening
  obtain ⟨gates, -, sessions⟩ := sound_gate_follows_timer
  obtain ⟨-, -, count⟩ := gates opening.1 rfl rfl [2, 1, 0, 0, 3] (by decide)
  refine ⟨count, ?_⟩
  have made : Machine.ofProgram {} .silent [0x60, 0x02, 0xF0, 0x18, 0x12, 0x04] = .ok humming := rfl
  obtain ⟨follows, -⟩ := sessions _ _ _ (.new humming 10) made tenfold [] silence ⟨[], []⟩ [[]]
  have timers : (opening.1.session ⟨[], []⟩ [[]]).passes.map (·.window.machine.sound) = [1, 0] := by
    decide +kernel
  obtain ⟨first, last, shape⟩ :=
    List.length_eq_two.mp (by simpa using congrArg List.length timers)
  have heard : ∀ done ∈ (opening.1.session ⟨[], []⟩ [[]]).passes,
      (done.window.beeping = true ↔ 0 < done.window.machine.sound) := follows []
  rw [shape] at timers heard
  simp only [List.map_cons, List.map_nil, List.cons.injEq, and_true] at timers
  refine ⟨first, last, shape, (heard first (by simp)).mpr (by omega), ?_⟩
  rw [Bool.eq_false_iff, Ne, heard last (by simp)]
  omega

end Window

end Chip8
