import Chip8.Proofs.Cycling
import Chip8.Proofs.Keys

/-!
What the events of a window add up to. Whether the session is to end, which keys are held and
whether the machine is paused hang on the events alone, and not on how they were cut into batches:
a key is held if the last event on it pressed it, a pause is turned over by every `p` that goes
down, and a session ends with the first event that ends it. A change of the program makes a new
start with no key held and no pause, and a change that is refused is no event for them
(`inputs_follow_events`).
-/

namespace Chip8

/-! ### Events -/

namespace Event

/-- Does an event end the session? Escape does when it goes down and when it comes up. -/
def quits : Event → Bool
  | .close => true
  | .keyDown name | .keyUp name => name == "ESCAPE"
  | .other => false

/-- What an event does to a key of the keypad: it presses it, lets it go, or has nothing to do with
it. -/
def on? (key : Key) : Event → Option Bool
  | .keyDown name => if keyboard.lookup name = some key then some true else none
  | .keyUp name => if keyboard.lookup name = some key then some false else none
  | .close | .other => none

/-- What the last of the events on a key did to it. -/
def lastOn? (key : Key) : List Event → Option Bool
  | [] => none
  | event :: rest => (lastOn? key rest).or (event.on? key)

end Event

namespace Window

variable {tree : FileTree} {w next : Window} {event : Event} {events : List Event}

/-- An event takes the window to the next program, which fits into memory. -/
def Changes (tree : FileTree) (w : Window) (event : Event) : Prop :=
  event = .keyDown "o" ∧ w.Good tree 1

instance (tree : FileTree) (w : Window) (event : Event) : Decidable (w.Changes tree event) :=
  inferInstanceAs (Decidable (_ ∧ _))

/-- The events behind the last that changed the program, if one did. -/
def sinceChange? (tree : FileTree) (w : Window) : List Event → Option (List Event)
  | [] => none
  | event :: rest =>
      match sinceChange? tree (w.handleAll tree [event]).1 rest with
      | some later => some later
      | none => if w.Changes tree event then some rest else none

/-- Takes batches of events one after the other. An error ends them. -/
def deliver (tree : FileTree) (w : Window) : List (List Event) → Window × Option FileError
  | [] => (w, none)
  | events :: rest =>
      match w.handleAll tree events with
      | (handled, none) => deliver tree handled rest
      | (handled, some e) => (handled, some e)

/-! ### Batches -/

theorem handleAll_append (tree : FileTree) (w : Window) (first second : List Event) :
    w.handleAll tree (first ++ second) =
      match w.handleAll tree first with
      | (handled, none) => handled.handleAll tree second
      | (handled, some e) => (handled, some e) := by
  induction first generalizing w with
  | nil => rfl
  | cons event rest ih =>
      simp only [List.cons_append, handleAll]
      cases w.handle tree event with
      | error e => rfl
      | ok next => exact ih next

/-- Where events are cut into batches makes no difference. -/
theorem deliver_eq_handleAll (tree : FileTree) (w : Window) (batches : List (List Event)) :
    w.deliver tree batches = w.handleAll tree batches.flatten := by
  induction batches generalizing w with
  | nil => rfl
  | cons events rest ih =>
      rw [List.flatten_cons, handleAll_append, deliver]
      split
      · exact ih _
      · rfl

/-! ### One event -/

/-- What an event makes of the inputs of a window. -/
structure Takes (tree : FileTree) (w : Window) (event : Event) (next : Window) : Prop where
  done : w.handle tree event = .ok next
  programs : next.programs = w.programs
  quit : next.quit = (w.quit || event.quits)
  fresh : w.Changes tree event →
    next.machine.keypad = .released ∧ next.machine.paused = false
  keys : ¬ w.Changes tree event →
    ∀ key : Key, next.machine.keypad.held.get key =
      (event.on? key).getD (w.machine.keypad.held.get key)
  paused : ¬ w.Changes tree event →
    next.machine.paused = (w.machine.paused ^^ decide (event = .keyDown "p"))

theorem forward_of_unmapped {name : String} (unmapped : keyboard.lookup name = none)
    (action : Int → Keypad.Action) : w.forward name action = w := by
  simp only [forward, unmapped]

/-- Passing a key on touches nothing but the keypad. -/
theorem forward_frame (w : Window) (name : String) (action : Int → Keypad.Action) :
    (w.forward name action).programs = w.programs ∧ (w.forward name action).quit = w.quit ∧
      (w.forward name action).machine.paused = w.machine.paused := by
  unfold forward
  split <;> exact ⟨rfl, rfl, rfl⟩

/-- A key that is passed on changes the key of the keypad that it stands for. -/
theorem forward_held (action : Int → Keypad.Action) {down : Bool}
    (acts : ∀ key other : Key, (w.machine.keypad.apply (action key.val)).held.get other =
      if key = other then down else w.machine.keypad.held.get other) (name : String) (other : Key) :
    (w.forward name action).machine.keypad.held.get other =
      if keyboard.lookup name = some other then down else w.machine.keypad.held.get other := by
  unfold forward
  cases mapped : keyboard.lookup name with
  | none => rfl
  | some key =>
      simp only [Option.some.injEq]
      exact acts key other

theorem not_changes_of_ne (other : event ≠ .keyDown "o") : ¬ w.Changes tree event :=
  fun changes => other changes.1

/-- An event that does not change the program does what it does to the inputs one by one. -/
theorem Takes.of_kept (kept : ¬ w.Changes tree event) (done : w.handle tree event = .ok next)
    (programs : next.programs = w.programs) (quit : next.quit = (w.quit || event.quits))
    (keys : ∀ key : Key,
      next.machine.keypad.held.get key = (event.on? key).getD (w.machine.keypad.held.get key))
    (paused : next.machine.paused = (w.machine.paused ^^ decide (event = .keyDown "p"))) :
    w.Takes tree event next :=
  ⟨done, programs, quit, fun changes => absurd changes kept, fun _ => keys, fun _ => paused⟩

/-- The keys of the window itself have no place on the keypad. -/
theorem on?_of_unmapped {name : String} (unmapped : keyboard.lookup name = none) (key : Key) :
    Event.on? key (.keyDown name) = none ∧ Event.on? key (.keyUp name) = none := by
  simp [Event.on?, unmapped]

theorem keyUp_takes (tree : FileTree) (w : Window) (name : String) :
    ∃ next, w.Takes tree (.keyUp name) next := by
  have kept : ¬ w.Changes tree (.keyUp name) := not_changes_of_ne (by simp)
  by_cases escape : name = "ESCAPE"
  · subst escape
    refine ⟨{ w with quit := true }, .of_kept kept rfl rfl ?_ ?_ ?_⟩
    · exact (Bool.or_true _).symm
    · intro key
      rw [(on?_of_unmapped (by decide) key).2]
      rfl
    · exact (Bool.xor_false _).symm
  · obtain ⟨programs, quit, paused⟩ := w.forward_frame name .release
    refine ⟨w.forward name .release, .of_kept kept ?_ programs ?_ ?_ ?_⟩
    · rw [handle, if_neg escape]
    · simp [quit, Event.quits, escape]
    · intro key
      rw [forward_held .release w.machine.keypad.held_release, Event.on?]
      split <;> rfl
    · rw [paused]
      exact (Bool.xor_false _).symm

/-- A machine that the window changed over to has no key held and is not paused. -/
theorem ChangesTo.fresh {path : String} {program : List Byte}
    (changes : w.ChangesTo path program next) :
    next.machine.keypad = .released ∧ next.machine.paused = false := by
  obtain ⟨start, made, machine⟩ := changes.machine
  rw [machine, Machine.ofProgram_frame made]
  exact ⟨rfl, rfl⟩

/-- A program that is refused leaves the inputs alone, and so does a list without programs. -/
theorem onward_takes (clear : ∀ path ∈ w.programs, ProgramFile.Clear tree path) :
    ∃ next, w.Takes tree (.keyDown "o") next := by
  have untouched (key : Key) : Event.on? key (.keyDown "o") = none :=
    (on?_of_unmapped (by decide) key).1
  have turn := w.turn tree
  generalize outcome : w.nextProgram tree = result at turn
  cases turn with
  | alone none =>
      have kept : ¬ w.Changes tree (.keyDown "o") := by
        rintro ⟨-, path, program, entry, -⟩
        rw [none] at entry
        cases entry
      refine ⟨w, .of_kept kept outcome rfl (Bool.or_false _).symm ?_ (Bool.xor_false _).symm⟩
      intro key
      rw [untouched]
      rfl
  | failed ahead unreadable =>
      exact absurd unreadable ((clear _ (List.mem_of_getElem? ahead)).readable _)
  | @kept path next ahead refused readable keeps =>
      have kept : ¬ w.Changes tree (.keyDown "o") := by
        rintro ⟨-, other, program, entry, offers⟩
        cases ahead.symm.trans entry
        exact refused program offers
      have machine : next.machine = w.machine := keeps.runner.machine
      refine ⟨next, .of_kept kept outcome ?_ ?_ ?_ ?_⟩
      · rw [keeps.others]
      · rw [keeps.others]
        exact (Bool.or_false _).symm
      · intro key
        rw [untouched, machine]
        rfl
      · rw [machine]
        exact (Bool.xor_false _).symm
  | @changed path program next ahead offers changes =>
      have good : w.Changes tree (.keyDown "o") := ⟨rfl, path, program, ahead, offers⟩
      refine ⟨next, outcome, ?_, ?_, fun _ => changes.fresh, absurd good, absurd good⟩
      · rw [changes.others]
      · rw [changes.others]
        exact (Bool.or_false _).symm

theorem keyDown_takes (clear : ∀ path ∈ w.programs, ProgramFile.Clear tree path) (name : String) :
    ∃ next, w.Takes tree (.keyDown name) next := by
  by_cases escape : name = "ESCAPE"
  · subst escape
    refine ⟨{ w with quit := true }, .of_kept (not_changes_of_ne (by simp)) rfl rfl ?_ ?_ ?_⟩
    · exact (Bool.or_true _).symm
    · intro key
      rw [(on?_of_unmapped (by decide) key).1]
      rfl
    · exact (Bool.xor_false _).symm
  by_cases pause : name = "p"
  · subst pause
    refine ⟨{ w with runner := w.runner.togglePause },
      .of_kept (not_changes_of_ne (by simp)) rfl rfl ?_ ?_ ?_⟩
    · exact (Bool.or_false _).symm
    · intro key
      rw [(on?_of_unmapped (by decide) key).1]
      rfl
    · exact (Bool.xor_true _).symm
  by_cases onward : name = "o"
  · subst onward
    exact onward_takes clear
  · obtain ⟨programs, quit, paused⟩ := w.forward_frame name .press
    refine ⟨w.forward name .press, .of_kept (not_changes_of_ne ?_) ?_ programs ?_ ?_ ?_⟩
    · simp [onward]
    · rw [handle, if_neg escape, if_neg pause, if_neg onward]
    · simp [quit, Event.quits, escape]
    · intro key
      rw [forward_held .press w.machine.keypad.held_press, Event.on?]
      split <;> rfl
    · simp [paused, pause]

theorem handle_takes (clear : ∀ path ∈ w.programs, ProgramFile.Clear tree path) (event : Event) :
    ∃ next, w.Takes tree event next := by
  cases event with
  | keyDown name => exact keyDown_takes clear name
  | keyUp name => exact keyUp_takes tree w name
  | close =>
      refine ⟨{ w with quit := true }, .of_kept (not_changes_of_ne (by simp)) rfl rfl ?_ ?_ ?_⟩
      · exact (Bool.or_true _).symm
      · exact fun _ => rfl
      · exact (Bool.xor_false _).symm
  | other =>
      refine ⟨w, .of_kept (not_changes_of_ne (by simp)) rfl rfl ?_ ?_ ?_⟩
      · exact (Bool.or_false _).symm
      · exact fun _ => rfl
      · exact (Bool.xor_false _).symm

/-! ### Events in order -/

/-- A window's keypad and pause are what events without a change of the program made of those that
were there before. -/
structure AddsUp (keypad : Keypad) (paused : Bool) (events : List Event) (last : Window) :
    Prop where
  keys : ∀ key : Key,
    last.machine.keypad.held.get key = (Event.lastOn? key events).getD (keypad.held.get key)
  paused : last.machine.paused = (paused ^^ decide (events.count (.keyDown "p") % 2 = 1))

theorem AddsUp.nil (w : Window) : AddsUp w.machine.keypad w.machine.paused [] w where
  keys _ := rfl
  paused := (Bool.xor_false _).symm

/-- One more turn makes an odd number of turns even and an even one odd. -/
theorem odd_succ (n : Nat) : decide ((n + 1) % 2 = 1) = !decide (n % 2 = 1) := by
  rw [← decide_not, decide_eq_decide]
  omega

theorem AddsUp.cons {last : Window} (takes : w.Takes tree event next)
    (kept : ¬ w.Changes tree event)
    (later : AddsUp next.machine.keypad next.machine.paused events last) :
    AddsUp w.machine.keypad w.machine.paused (event :: events) last where
  keys key := by
    rw [later.keys, takes.keys kept, Event.lastOn?]
    cases Event.lastOn? key events <;> rfl
  paused := by
    rw [later.paused, takes.paused kept, List.count_cons]
    by_cases pause : event = .keyDown "p"
    · simp [pause, odd_succ]
    · simp [pause]

/-- A key is held if the last event on it pressed it, or if it was held and let alone. -/
theorem AddsUp.isPressed_iff {last : Window} {keypad : Keypad} {paused : Bool}
    (adds : AddsUp keypad paused events last) {code : Int} :
    last.machine.keypad.isPressed code = true ↔
      ∃ key : Key, code = key.val ∧
        (Event.lastOn? key events = some true ∨
          Event.lastOn? key events = none ∧ keypad.isPressed code = true) := by
  rw [Keypad.isPressed_iff]
  refine exists_congr fun key => and_congr_right ?_
  rintro rfl
  rw [adds.keys, Keypad.isPressed_key]
  cases Event.lastOn? key events <;> simp

/-- What events in order come to: none of them ends in an error, the session is to end if one of
them ends it, and the keypad and the pause are those of the last change of the program or of the
window as it was, and what came behind. -/
structure Followed (tree : FileTree) (w : Window) (events : List Event) (last : Window) :
    Prop where
  done : w.handleAll tree events = (last, none)
  quit : last.quit = (w.quit || events.any Event.quits)
  changed : ∀ since, w.sinceChange? tree events = some since → AddsUp .released false since last
  kept : w.sinceChange? tree events = none →
    AddsUp w.machine.keypad w.machine.paused events last

theorem Followed.cons {last : Window} (takes : w.Takes tree event next)
    (later : next.Followed tree events last) : w.Followed tree (event :: events) last := by
  have first : w.handleAll tree [event] = (next, none) := by
    simp only [handleAll, takes.done]
  refine ⟨?_, ?_, ?_, ?_⟩
  · simp only [handleAll, takes.done]
    exact later.done
  · rw [later.quit, takes.quit, List.any_cons, Bool.or_assoc]
  · intro since change
    simp only [sinceChange?, first] at change
    cases behind : next.sinceChange? tree events with
    | some early =>
        rw [behind] at change
        cases change
        exact later.changed _ behind
    | none =>
        rw [behind] at change
        by_cases changes : w.Changes tree event
        · simp only [if_pos changes, Option.some.injEq] at change
          obtain ⟨keypad, paused⟩ := takes.fresh changes
          rw [← keypad, ← paused, ← change]
          exact later.kept behind
        · simp only [if_neg changes] at change
          cases change
  · intro none
    simp only [sinceChange?, first] at none
    cases behind : next.sinceChange? tree events with
    | some early =>
        rw [behind] at none
        cases none
    | none =>
        rw [behind] at none
        by_cases changes : w.Changes tree event
        · simp only [if_pos changes] at none
          cases none
        · exact (later.kept behind).cons takes changes

theorem exists_followed (clear : ∀ path ∈ w.programs, ProgramFile.Clear tree path)
    (events : List Event) : ∃ last, w.Followed tree events last := by
  induction events generalizing w with
  | nil =>
      refine ⟨w, rfl, (Bool.or_false _).symm, ?_, fun _ => .nil w⟩
      intro since change
      cases change
  | cons event rest ih =>
      obtain ⟨next, takes⟩ := handle_takes clear event
      obtain ⟨last, later⟩ := ih (w := next) (takes.programs ▸ clear)
      exact ⟨last, later.cons takes⟩

/-- The inputs of a window follow from its events. Let no path of the list of programs end in an
error. Whatever events are delivered, in batches cut anywhere, none of them ends in an error; the
session is to end if it was or if one of the events ends it; the keys held are those that the last
event on them pressed since the program last changed, and those held at first and let alone if it
never did; and the pause is turned over by every `p` that went down since then. Keys that stand for
nothing change nothing, whether they go down or come up, and neither does `p` or `o` when it comes
up. -/
theorem inputs_follow_events (tree : FileTree) (w : Window)
    (clear : ∀ path ∈ w.programs, ProgramFile.Clear tree path) (batches : List (List Event)) :
    let events := batches.flatten
    let change := w.sinceChange? tree events
    let since := change.getD events
    (∃ last, w.deliver tree batches = (last, none) ∧
      (last.quit = true ↔ w.quit = true ∨ ∃ event ∈ events, event.quits = true) ∧
      (∀ code, last.machine.keypad.isPressed code = true ↔
        ∃ key : Key, code = key.val ∧
          (Event.lastOn? key since = some true ∨
            Event.lastOn? key since = none ∧ change = none ∧
              w.machine.keypad.isPressed code = true)) ∧
      last.machine.paused =
        ((change.isNone && w.machine.paused) ^^
          decide (since.count (.keyDown "p") % 2 = 1))) ∧
      (∀ others : List (List Event), others.flatten = events →
        w.deliver tree others = w.deliver tree batches) ∧
      ∀ v : Window, v.handle tree (.keyUp "p") = .ok v ∧ v.handle tree (.keyUp "o") = .ok v ∧
        ∀ name, keyboard.lookup name = none → name ≠ "ESCAPE" →
          v.handle tree (.keyUp name) = .ok v ∧
            (name ≠ "p" → name ≠ "o" → v.handle tree (.keyDown name) = .ok v) := by
  intro events change since
  obtain ⟨last, followed⟩ := exists_followed clear events
  refine ⟨⟨last, ?_, ?_, ?_⟩, ?_, ?_⟩
  · exact (deliver_eq_handleAll tree w batches).trans followed.done
  · rw [followed.quit, Bool.or_eq_true, List.any_eq_true]
  · cases changed : change with
    | some late =>
        have adds := followed.changed late changed
        have same : since = late := by simp only [since, changed, Option.getD_some]
        rw [same]
        refine ⟨fun code => ?_, adds.paused⟩
        rw [adds.isPressed_iff]
        simp [Keypad.isPressed_released]
    | none =>
        have adds := followed.kept changed
        have same : since = events := by simp only [since, changed, Option.getD_none]
        rw [same]
        refine ⟨fun code => ?_, adds.paused⟩
        rw [adds.isPressed_iff]
        simp
  · intro others same
    rw [deliver_eq_handleAll, deliver_eq_handleAll, same]
  · intro v
    have up {name : String} (unmapped : keyboard.lookup name = none) (escape : name ≠ "ESCAPE") :
        v.handle tree (.keyUp name) = .ok v := by
      rw [handle, if_neg escape, forward_of_unmapped unmapped]
    refine ⟨up (by decide) (by decide), up (by decide) (by decide), ?_⟩
    intro name unmapped escape
    refine ⟨up unmapped escape, fun pause onward => ?_⟩
    rw [handle, if_neg escape, if_neg pause, if_neg onward, forward_of_unmapped unmapped]

def fingering : List (List Event) :=
  [[.keyDown "q", .keyDown "p"], [.keyDown "o", .keyDown "v", .keyDown "p"],
    [.keyDown "o", .keyUp "p", .keyDown "x", .keyUp "x", .keyUp "ESCAPE"]]

/-- What came before the change is forgotten, and what came behind it stays through the refusal. -/
theorem fingering_adds_up :
    (∀ path ∈ browsing.programs, ProgramFile.Clear shelf path) ∧
      browsing.sinceChange? shelf fingering.flatten =
        some [.keyDown "v", .keyDown "p", .keyDown "o", .keyUp "p", .keyDown "x", .keyUp "x",
          .keyUp "ESCAPE"] ∧
      ∃ last, browsing.deliver shelf fingering = (last, none) ∧ last.quit = true ∧
        last.machine.keypad.isPressed 0xF = true ∧ last.machine.keypad.isPressed 0x4 = false ∧
        last.machine.paused = true := by
  have change : browsing.sinceChange? shelf fingering.flatten =
      some [.keyDown "v", .keyDown "p", .keyDown "o", .keyUp "p", .keyDown "x", .keyUp "x",
        .keyUp "ESCAPE"] := by decide +kernel
  obtain ⟨⟨last, done, quit, keys, paused⟩, -⟩ :=
    inputs_follow_events shelf browsing browsing_clear fingering
  rw [change] at keys paused
  refine ⟨browsing_clear, change, last, done, quit.mpr (.inr ⟨.keyUp "ESCAPE", ?_, rfl⟩), ?_, ?_,
    ?_⟩
  · decide
  · exact (keys 0xF).mpr ⟨0xF, rfl, .inl (by decide)⟩
  · rw [Bool.eq_false_iff, Ne, keys]
    rintro ⟨key, code, pressed⟩
    obtain rfl : key = 0x4 := Fin.ext (Int.ofNat_inj.mp code.symm)
    exact absurd pressed (by decide)
  · exact paused.trans (by decide)

end Window

end Chip8
