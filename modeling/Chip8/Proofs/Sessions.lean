import Mathlib.Data.List.Basic
import Chip8.Proofs.Painting
import Chip8.Proofs.Redraw

/-!
The screen through a window's session. Behind its events a pass lets the machine work and then draws
or rests (`Window.Passed`); it draws if the machine asks for a picture, if it is paused or if a
fault has stopped it. An invariant that every pass keeps holds in front of every pass of a session
(`Window.session_keeps`).

After every pass of a session the screen shows the display of the machine as the pass left it
(`Window.screen_shows_display`). The word over the picture is the one that is due, with one
exception (`Window.word_is_due_iff`): nothing asks for a picture when a paused machine goes on, so
the word of the pause stays until the machine draws.
-/

namespace Chip8

namespace Runner

def pictureDue (r : Runner) : Bool :=
  r.machine.redraw || r.machine.paused || !r.running

/-- The overlay that is due over the picture of the runner's machine. -/
def overlay (r : Runner) : Option Overlay :=
  if !r.running then some .halted else if r.machine.paused then some .paused else none

/-- A runner whose machine was drawn. -/
def shown (r : Runner) : Runner :=
  { r with machine := r.machine.settled }

variable {r : Runner}

theorem overlay_word (r : Runner) : r.overlay.map Overlay.word = r.dueWord := by
  unfold overlay dueWord running
  cases r.fault with
  | some f => rfl
  | none => cases r.machine.paused <;> rfl

theorem shown_dueWord (r : Runner) : r.shown.dueWord = r.dueWord :=
  rfl

/-- Where no picture is due, the machine asks for none, is not paused and not stopped. -/
theorem pictureDue_eq_false_iff :
    r.pictureDue = false ↔
      r.machine.redraw = false ∧ r.machine.paused = false ∧ r.fault = none := by
  simp [pictureDue, running, and_assoc]

end Runner

namespace Window

variable {tree : FileTree} {w : Window} {r : Runner} {done : Pass} {canvas : Canvas}

/-! ### One pass -/

/-- What a pass of a window comes to, where `r` is the runner behind the tick. -/
structure Passed (w : Window) (r : Runner) (done : Pass) : Prop where
  announced : w.runner.Announced r
  scale : done.window.frame.scale = w.frame.scale
  runner : done.window.runner = if r.pictureDue then r.shown else r
  draws : done.draws = r.pictureDue
  screen : ∀ canvas : Canvas, canvas.followAll done.orders =
    if r.pictureDue then
      canvas.drawAll (Drawing.picture w.frame.scale r.machine.display r.overlay)
    else canvas

/-- The sound gate does not touch the runner or the frame, and it orders nothing from the screen. -/
theorem gate_silent (w : Window) (sound : Int) :
    (w.gate sound).1.runner = w.runner ∧ (w.gate sound).1.frame = w.frame ∧
      ∀ o ∈ (w.gate sound).2, o.isDrawing = false := by
  unfold gate
  split
  · simp
  · split
    · simp [Order.isDrawing]
    · split <;> simp [Order.isDrawing]

/-- Where a picture is due it is drawn and the machine is shown, and otherwise nothing happens. -/
theorem drawIfDue_eq (w : Window) :
    w.drawIfDue =
      if w.runner.pictureDue then
        ({ w with runner := w.runner.shown },
          (Drawing.picture w.frame.scale w.machine.display w.runner.overlay).map .draw)
      else (w, []) :=
  rfl

def ticked (w : Window) : Window :=
  { w with runner := w.runner.tick.runner }

/-- The work of a pass is a tick, then the sound gate at the sound timer behind it, then the picture
if it is due. -/
theorem work_gated (worked : w.work = .ok done) :
    let gated := w.ticked.gate w.ticked.machine.sound
    w.runner.tick.broken = none ∧ done.window = gated.1.drawIfDue.1 ∧
      done.orders = gated.2 ++ gated.1.drawIfDue.2 := by
  unfold work at worked
  simp only at worked
  split at worked
  · cases worked
  · rename_i unbroken
    cases worked
    exact ⟨unbroken, rfl, rfl⟩

/-- The work of a pass is a tick, then orders to the speaker, then the picture if it is due. -/
theorem work_ok (worked : w.work = .ok done) :
    w.runner.tick.broken = none ∧
      ∃ (gated : Window) (sounds : List Order),
        gated.runner = w.runner.tick.runner ∧ gated.frame = w.frame ∧
        (∀ o ∈ sounds, o.isDrawing = false) ∧
        done.window = gated.drawIfDue.1 ∧ done.orders = sounds ++ gated.drawIfDue.2 := by
  obtain ⟨unbroken, window, orders⟩ := work_gated worked
  obtain ⟨runner, frame, silent⟩ := gate_silent w.ticked w.ticked.machine.sound
  exact ⟨unbroken, _, _, runner, frame, silent, window, orders⟩

theorem any_isDrawing_of_silent {orders : List Order} (silent : ∀ o ∈ orders, o.isDrawing = false) :
    orders.any Order.isDrawing = false := by
  rw [List.any_eq_false]
  intro o mem
  rw [silent o mem]
  exact Bool.false_ne_true

/-- The work of a pass draws if a picture is due behind the tick, and rests otherwise. -/
theorem work_passed (worked : w.work = .ok done) : w.Passed w.runner.tick.runner done := by
  obtain ⟨unbroken, gated, sounds, runner, frame, silent, window, orders⟩ := work_ok worked
  have announced := Runner.tick_announced unbroken
  have quiet := any_isDrawing_of_silent silent
  rw [drawIfDue_eq, runner] at window orders
  cases due : w.runner.tick.runner.pictureDue with
  | true =>
      rw [due, if_pos rfl] at window orders
      refine ⟨announced, ?_, ?_, ?_, ?_⟩
      · rw [window, ← frame]
      · rw [window, due, if_pos rfl]
      · -- A picture starts with a fill, so a pass that draws has a drawing order.
        rw [Pass.draws, orders, List.any_append, due, Drawing.picture]
        simp [Order.isDrawing]
      · intro canvas
        rw [orders, Canvas.followAll_append, Canvas.followAll_of_silent silent,
          Canvas.followAll_draw, due, if_pos rfl, frame, machine, runner]
  | false =>
      rw [due, if_neg Bool.false_ne_true] at window orders
      refine ⟨announced, ?_, ?_, ?_, ?_⟩
      · rw [window, frame]
      · rw [window, due, if_neg Bool.false_ne_true, runner]
      · rw [Pass.draws, orders, List.append_nil, quiet, due]
      · intro canvas
        rw [orders, List.append_nil, Canvas.followAll_of_silent silent, due,
          if_neg Bool.false_ne_true]

/-- A pass that is not broken off takes its events and then works. -/
theorem pass_ok {events : List Event} (passed : w.pass tree events = .ok done) :
    ∃ handled, w.handleAll tree events = (handled, none) ∧ handled.work = .ok done := by
  unfold pass at passed
  split at passed
  · cases passed
  · rename_i handled result
    exact ⟨handled, result, passed⟩

theorem pass_passed {events : List Event} (passed : w.pass tree events = .ok done) :
    ∃ r, w.Passed r done := by
  obtain ⟨handled, result, worked⟩ := pass_ok passed
  obtain ⟨before, scale⟩ := handleAll_announced result
  have worked := work_passed worked
  exact ⟨_, { worked with
    announced := before.trans worked.announced
    scale := worked.scale.trans scale
    screen := fun canvas => by rw [worked.screen, scale] }⟩

/-! ### Sessions -/

/-- The first pass of a session is one of its window, and what follows is nothing or the session of
the window behind that pass. -/
theorem session_first {batches : List (List Event)} {rest : List Pass}
    (shape : (w.session tree batches).passes = done :: rest) :
    (∃ events, w.pass tree events = .ok done) ∧
      (rest = [] ∨ ∃ later, (done.window.session tree later).passes = rest) := by
  unfold session at shape
  split at shape
  · cases shape
  · split at shape
    · split at shape
      · cases shape
      · rename_i passed
        cases shape
        exact ⟨⟨_, passed⟩, .inl rfl⟩
    · split at shape
      · cases shape
      · rename_i passed
        cases shape
        exact ⟨⟨_, passed⟩, .inr ⟨_, rfl⟩⟩

/-- What holds of a window in front of its session and is kept by every pass holds in front of every
pass of the session. The invariant may speak of the passes so far. -/
theorem session_keeps {I : List Pass → Window → Prop} (start : I [] w)
    (keep : ∀ history w events done, I history w → w.pass tree events = .ok done →
      I (history ++ [done]) done.window)
    {batches : List (List Event)} {before later : List Pass}
    (parts : (w.session tree batches).passes = before ++ done :: later) :
    ∃ w' events, I before w' ∧ w'.pass tree events = .ok done := by
  induction before generalizing w I batches with
  | nil =>
      obtain ⟨⟨events, passed⟩, -⟩ := session_first parts
      exact ⟨w, events, start, passed⟩
  | cons first before ih =>
      obtain ⟨⟨events, passed⟩, rest⟩ := session_first parts
      rcases rest with none | ⟨batches', rest⟩
      · cases before <;> cases none
      · -- The rest is a session of its own, whose invariant knows of the first pass.
        exact ih (I := fun history => I (first :: history)) (keep [] w events first start passed)
          (fun history => keep (first :: history)) rest

/-- What every pass gives that starts from such an invariant, all passes of a session give. -/
theorem session_gives {P : Window → Prop} {Q : Pass → Prop} (start : P w)
    (keep : ∀ w events done, P w → w.pass tree events = .ok done → P done.window ∧ Q done)
    {batches : List (List Event)} (mem : done ∈ (w.session tree batches).passes) : Q done := by
  obtain ⟨before, later, parts⟩ := List.append_of_mem mem
  obtain ⟨w', events, holds, passed⟩ := session_keeps (I := fun _ w => P w) start
    (fun _ w events done holds passed => (keep w events done holds passed).1) parts
  exact (keep w' events done holds passed).2

/-- The same invariants, for what is kept by all that a pass can come to. -/
theorem session_pass {I : List Pass → Window → Prop} (start : I [] w)
    (keep : ∀ history w r done, I history w → w.Passed r done → I (history ++ [done]) done.window)
    {batches : List (List Event)} {before later : List Pass}
    (parts : (w.session tree batches).passes = before ++ done :: later) :
    ∃ w' r, I before w' ∧ w'.Passed r done := by
  have keeps : ∀ history w events done, I history w → w.pass tree events = .ok done →
      I (history ++ [done]) done.window := by
    intro history w events done holds passed
    obtain ⟨r, outcome⟩ := pass_passed passed
    exact keep history w r done holds outcome
  obtain ⟨w', events, holds, passed⟩ := session_keeps start keeps parts
  obtain ⟨r, outcome⟩ := pass_passed passed
  exact ⟨w', r, holds, outcome⟩

/-! ### The display on the screen -/

/-- A screen follows a window: unless the machine asks for a picture, its display is on the
screen. -/
def Follows (canvas : Canvas) (w : Window) : Prop :=
  w.machine.redraw = false → canvas.Shows w.frame.scale w.machine.display

/-- Behind a pass the display of the machine is on the screen, whether the pass drew or rested. -/
theorem Passed.shows (passed : w.Passed r done) (follows : Follows canvas w) :
    (canvas.followAll done.orders).Shows done.window.frame.scale done.window.machine.display := by
  rw [passed.screen, passed.scale, machine, passed.runner]
  cases due : r.pictureDue with
  | true => exact Canvas.drawAll_picture_shows w.frame.scale_pos canvas _ _
  | false =>
      obtain ⟨quiet, -, -⟩ := Runner.pictureDue_eq_false_iff.mp due
      obtain ⟨before, display⟩ := passed.announced.machine.quiet quiet
      simp only [Bool.false_eq_true, if_false, display]
      exact follows before

theorem after_append (opening : List Order) (history : List Pass) (done : Pass) :
    Canvas.after opening (history ++ [done]) =
      (Canvas.after opening history).followAll done.orders := by
  simp only [Canvas.after, ← Canvas.followAll_append, List.flatMap_append, List.flatMap_cons,
    List.flatMap_nil, List.append_nil, List.append_assoc]

/-- Opening a window draws nothing, and it touches neither the machine nor the fault. -/
theorem opened_spec (runner : Runner) (frame : Frame) (programs : List String)
    (sources : Nat → Noise) (speaker : Option (List Int)) :
    let opening := opened runner frame programs sources speaker
    Canvas.after opening.2 [] = Canvas.blank ∧ opening.1.machine = runner.machine ∧
      opening.1.runner.fault = runner.fault ∧ opening.1.frame = frame := by
  refine ⟨Canvas.followAll_of_silent ?_, ?_⟩
  · cases speaker <;> simp [opened, Order.isDrawing]
  · cases speaker <;> exact ⟨rfl, rfl, rfl⟩

/-- A dark display is on a screen on which nothing was drawn. -/
theorem blank_shows_dark (scale : Nat) : Canvas.blank.Shows scale Display.dark := by
  intro x y _ _
  simp [Canvas.blank, Display.lit, Display.dark, Drawing.pixelColour]

/-- After every pass of a session the screen shows the display of the machine as the pass left it,
for every program, every list of programs to go on to and all events. Passes that rest and requests
that are withdrawn behind a picture lose nothing. -/
theorem screen_shows_display {mode : Mode} {noise : Noise} {program : List Byte} (runner : Runner)
    (made : Machine.ofProgram mode noise program = .ok runner.machine) (frame : Frame)
    (programs : List String) (sources : Nat → Noise) (speaker : Option (List Int))
    (tree : FileTree) (batches : List (List Event)) :
    let opening := opened runner frame programs sources speaker
    ∀ before done later,
      (opening.1.session tree batches).passes = before ++ done :: later →
        (Canvas.after opening.2 (before ++ [done])).Shows frame.scale
          done.window.machine.display := by
  intro opening before done later parts
  obtain ⟨blank, machine, -, sameFrame⟩ := opened_spec runner frame programs sources speaker
  have dark : runner.machine.display = Display.dark := by
    rw [Machine.ofProgram_frame made]
    rfl
  have start : opening.1.frame.scale = frame.scale ∧
      Follows (Canvas.after opening.2 []) opening.1 := by
    refine ⟨congrArg Frame.scale sameFrame, fun _ => ?_⟩
    rw [blank, machine, dark]
    exact blank_shows_dark _
  obtain ⟨w, r, ⟨scale, follows⟩, passed⟩ := session_pass
    (I := fun history w => w.frame.scale = frame.scale ∧
      Follows (Canvas.after opening.2 history) w)
    start
    (fun history w r done ⟨scale, follows⟩ passed =>
      ⟨passed.scale.trans scale, fun _ => by
        rw [after_append]
        exact passed.shows follows⟩)
    parts
  rw [after_append, ← scale, ← passed.scale]
  exact passed.shows follows

def tenfold : Frame :=
  ⟨10, by decide, 640, 320, ""⟩

/-- Machines to come on random sources that say nothing. -/
def silence : Nat → Noise :=
  fun _ => .silent

def drawingZero : Machine :=
  { Machine.fresh {} .silent with
    memory := Machine.initialMemory.store Machine.origin [0xA0, 0x00, 0xD0, 0x15, 0x12, 0x04] }

/-- The second pass rests, and the glyph stays on the screen. -/
theorem zero_stays_on_screen :
    ∃ first last,
      ((opened (.new drawingZero 10) tenfold [] silence none).1.session ⟨[], []⟩ [[]]).passes =
        [first] ++ last :: [] ∧
      first.draws = true ∧ last.draws = false ∧ last.window.machine.display.lit 0 0 = true ∧
      (Canvas.after (opened (.new drawingZero 10) tenfold [] silence none).2
        ([first] ++ [last])).Shows 10 last.window.machine.display := by
  have seen :
      ((opened (.new drawingZero 10) tenfold [] silence none).1.session ⟨[], []⟩ [[]]).passes.map
          (fun p => (p.draws, p.window.machine.display.lit 0 0)) =
        [(true, true), (false, true)] := by decide +kernel
  obtain ⟨first, last, shape⟩ := List.length_eq_two.mp (by simpa using congrArg List.length seen)
  have made : Machine.ofProgram {} .silent [0xA0, 0x00, 0xD0, 0x15, 0x12, 0x04] =
      .ok drawingZero := rfl
  rw [shape] at seen
  simp only [List.map_cons, List.cons.injEq, Prod.mk.injEq] at seen
  obtain ⟨⟨drew, -⟩, ⟨rested, lit⟩, -⟩ := seen
  exact ⟨first, last, shape, drew, rested, lit,
    screen_shows_display (.new drawingZero 10) made tenfold [] silence none ⟨[], []⟩ [[]] [first]
      last [] shape⟩

/-! ### The word over the picture -/

theorem lastDrawn?_append (history : List Pass) (done : Pass) :
    lastDrawn? (history ++ [done]) = if done.draws then some done else lastDrawn? history := by
  unfold lastDrawn?
  rw [List.reverse_append, List.reverse_singleton, List.singleton_append, List.find?_cons]
  cases done.draws <;> rfl

/-- What the passes so far say of the word over the picture: it is the one that was due when the
last of them drew; and if that was the word of a fault, the fault stands or a picture is asked
for. -/
structure Worded (opening : List Order) (history : List Pass) (w : Window) : Prop where
  word : (Canvas.after opening history).word =
    (lastDrawn? history).bind fun drawn => drawn.window.runner.dueWord
  fault : ∀ drawn f, lastDrawn? history = some drawn → drawn.window.runner.fault = some f →
    w.runner.fault = some f ∨ w.machine.redraw = true

/-- Where a pass drew, the word that is due behind it was written. -/
theorem Passed.word_of_drew (passed : w.Passed r done) (drew : done.draws = true) :
    (canvas.followAll done.orders).word = done.window.runner.dueWord := by
  have due : r.pictureDue = true := passed.draws.symm.trans drew
  rw [passed.screen, passed.runner, due, if_pos rfl, if_pos rfl, Canvas.drawAll_picture_word,
    Runner.overlay_word, Runner.shown_dueWord]

/-- Where a pass rested, no word is due behind it and the screen is left alone. -/
theorem Passed.of_rested (passed : w.Passed r done) (rested : done.draws = false) :
    done.window.runner = r ∧ r.machine.redraw = false ∧ r.fault = none ∧ r.dueWord = none ∧
      ∀ canvas : Canvas, canvas.followAll done.orders = canvas := by
  have due : r.pictureDue = false := passed.draws.symm.trans rested
  obtain ⟨quiet, unpaused, running⟩ := Runner.pictureDue_eq_false_iff.mp due
  refine ⟨?_, quiet, running, ?_, ?_⟩
  · rw [passed.runner, due, if_neg Bool.false_ne_true]
  · simp [Runner.dueWord, unpaused, running]
  · intro canvas
    rw [passed.screen, due, if_neg Bool.false_ne_true]

theorem Worded.pass {opening : List Order} {history : List Pass} (worded : Worded opening history w)
    (passed : w.Passed r done) : Worded opening (history ++ [done]) done.window := by
  cases drew : done.draws with
  | true =>
      refine ⟨?_, ?_⟩
      · rw [after_append, lastDrawn?_append, drew, passed.word_of_drew drew]
        rfl
      · intro drawn f last stopped
        rw [lastDrawn?_append, drew, if_pos rfl] at last
        cases last
        exact .inl stopped
  | false =>
      obtain ⟨runner, -, -, -, screen⟩ := passed.of_rested drew
      refine ⟨?_, ?_⟩
      · rw [after_append, lastDrawn?_append, drew, screen, worded.word]
        rfl
      · intro drawn f last stopped
        rw [lastDrawn?_append, drew, if_neg Bool.false_ne_true] at last
        rw [machine, runner]
        rcases worded.fault drawn f last stopped with stands | asks
        · exact passed.announced.fault f stands
        · exact .inr (passed.announced.machine.redraw asks)

/-- In front of every pass of a session the passes so far say what the word over the picture is. -/
theorem opened_worded (runner : Runner) (frame : Frame) (programs : List String)
    (sources : Nat → Noise) (speaker : Option (List Int)) {batches : List (List Event)}
    (before : List Pass) {later : List Pass} :
    let opening := opened runner frame programs sources speaker
    (opening.1.session tree batches).passes = before ++ done :: later →
      ∃ w r, Worded opening.2 before w ∧ w.Passed r done := by
  intro opening parts
  obtain ⟨blank, -⟩ := opened_spec runner frame programs sources speaker
  have start : Worded opening.2 [] opening.1 := by
    refine ⟨?_, ?_⟩
    · rw [blank]
      rfl
    · intro drawn f last
      cases last
  exact session_pass start (fun _ _ _ _ worded passed => worded.pass passed) parts

/-- Where a pass rested, no word was left on the screen but that of a pause. -/
theorem Worded.left_of_rested {opening : List Order} {history : List Pass}
    (worded : Worded opening history w) (passed : w.Passed r done) (rested : done.draws = false) :
    let left := (lastDrawn? history).bind fun drawn => drawn.window.runner.dueWord
    left = none ∨ left = some "PAUSED" := by
  cases last : lastDrawn? history with
  | none => exact .inl rfl
  | some drawn =>
      cases fault : drawn.window.runner.fault with
      | none =>
          cases paused : drawn.window.runner.machine.paused with
          | false => exact .inl (by simp [Runner.dueWord, fault, paused])
          | true => exact .inr (by simp [Runner.dueWord, fault, paused])
      | some f =>
          -- The fault stands or a picture is asked for, and either way the pass would have drawn.
          obtain ⟨-, quiet, running, -, -⟩ := passed.of_rested rested
          rcases worded.fault drawn f last fault with stands | asks
          · rcases passed.announced.fault f stands with stands | asks
            · rw [running] at stands
              cases stands
            · rw [quiet] at asks
              cases asks
          · rw [passed.announced.machine.redraw asks] at quiet
            cases quiet

/-- The word on the screen behind a pass is the one that is due exactly if the pass drew or the last
pass that drew did not leave the word of a pause. The word of a fault never stays behind, whatever
program is next: a change of the program asks for a picture. The word of a pause stays when the
machine goes on, until the program draws, a fault stops it or the program is changed, since going on
asks for nothing. -/
theorem word_is_due_iff (runner : Runner) (frame : Frame) (programs : List String)
    (sources : Nat → Noise) (speaker : Option (List Int)) (tree : FileTree)
    (batches : List (List Event)) :
    let opening := opened runner frame programs sources speaker
    ∀ before done later,
      (opening.1.session tree batches).passes = before ++ done :: later →
        let shown := (Canvas.after opening.2 (before ++ [done])).word
        let due := done.window.runner.dueWord
        let left := (lastDrawn? before).bind fun drawn => drawn.window.runner.dueWord
        (shown = due ↔ done.draws = true ∨ left ≠ some "PAUSED") ∧
          (shown ≠ due → shown = some "PAUSED" ∧ due = none) := by
  intro opening before done later parts shown due left
  obtain ⟨w, r, worded, passed⟩ := opened_worded runner frame programs sources speaker before parts
  have shown_eq : shown = ((Canvas.after opening.2 before).followAll done.orders).word :=
    congrArg Canvas.word (after_append opening.2 before done)
  cases drew : done.draws with
  | true =>
      have same : shown = due := shown_eq.trans (passed.word_of_drew drew)
      exact ⟨iff_of_true same (.inl rfl), fun stale => absurd same stale⟩
  | false =>
      obtain ⟨runner, -, -, none, screen⟩ := passed.of_rested drew
      have shown_left : shown = left := by rw [shown_eq, screen, worded.word]
      have due_none : due = Option.none := (congrArg Runner.dueWord runner).trans none
      have clear_or_paused : left = Option.none ∨ left = some "PAUSED" :=
        worded.left_of_rested passed drew
      rw [shown_left, due_none]
      rcases clear_or_paused with clear | paused
      · simp [clear]
      · simp [paused]

def idling : Machine :=
  { Machine.fresh {} .silent with
    memory := Machine.initialMemory.store Machine.origin [0x12, 0x00] }

theorem idling_made : Machine.ofProgram {} .silent [0x12, 0x00] = .ok idling :=
  rfl

def pausedOnce : Session :=
  (opened (.new idling 10) tenfold [] silence none).1.session ⟨[], []⟩
    [[.keyDown "p"], [.keyDown "p"]]

/-- The session draws the pause in its first pass and rests with its second. -/
theorem pausedOnce_passes :
    ∃ first second last, pausedOnce.passes = [first, second, last] ∧
      first.draws = true ∧ first.window.runner.dueWord = some "PAUSED" ∧
      second.draws = false ∧ second.window.runner.dueWord = none := by
  have seen : pausedOnce.passes.map (fun p => (p.draws, p.window.runner.dueWord)) =
      [(true, some "PAUSED"), (false, none), (false, none)] := by decide +kernel
  obtain ⟨first, second, last, shape⟩ := List.length_eq_three.mp
    (by simpa using congrArg List.length seen)
  rw [shape] at seen
  simp only [List.map_cons, List.cons.injEq, Prod.mk.injEq] at seen
  obtain ⟨⟨drew, due⟩, ⟨rested, none⟩, -⟩ := seen
  exact ⟨first, second, last, shape, drew, due, rested, none⟩

theorem pausedOnce_shows_pause :
    ∃ first later, pausedOnce.passes = [] ++ first :: later ∧
      first.window.runner.dueWord = some "PAUSED" ∧
      (Canvas.after (opened (.new idling 10) tenfold [] silence none).2 [first]).word =
        some "PAUSED" := by
  obtain ⟨first, second, last, shape, drew, due, -⟩ := pausedOnce_passes
  have parts := shape
  unfold pausedOnce at parts
  obtain ⟨exact, -⟩ := word_is_due_iff (.new idling 10) tenfold [] silence none ⟨[], []⟩
    [[.keyDown "p"], [.keyDown "p"]] [] first [second, last] parts
  exact ⟨first, [second, last], shape, due, (exact.mpr (.inl drew)).trans due⟩

/-- The word on the screen is not always the one that is due: behind the second pass of that session
the machine works again, and the screen still says that it is paused. -/
theorem pause_word_outlives_pause :
    ¬ ∀ (mode : Mode) (noise : Noise) (program : List Byte) (runner : Runner) (frame : Frame)
        (programs : List String) (sources : Nat → Noise) (speaker : Option (List Int))
        (tree : FileTree) (batches : List (List Event)),
        Machine.ofProgram mode noise program = .ok runner.machine → runner.fault = none →
          let opening := opened runner frame programs sources speaker
          ∀ before done later,
            (opening.1.session tree batches).passes = before ++ done :: later →
              (Canvas.after opening.2 (before ++ [done])).word = done.window.runner.dueWord := by
  intro always
  obtain ⟨first, second, last, shape, drew, due, rested, none⟩ := pausedOnce_passes
  unfold pausedOnce at shape
  have same := always {} .silent [0x12, 0x00] (.new idling 10) tenfold [] silence Option.none
    ⟨[], []⟩ [[.keyDown "p"], [.keyDown "p"]] idling_made rfl [first] second [last] shape
  obtain ⟨w, r, worded, passed⟩ :=
    opened_worded (.new idling 10) tenfold [] silence Option.none [first] shape
  rw [(worded.pass passed).word, lastDrawn?_append, rested, none] at same
  simp [lastDrawn?, drew, due] at same

end Window

end Chip8
