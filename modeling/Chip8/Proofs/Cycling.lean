import Chip8.Proofs.Restarts
import Chip8.Window

/-!
Going through a window's programs. The programs of a window are a circle, and going on to the next
of them can end in four ways (`Window.Turn`): there is no list to go through; the path ahead offers
a program that fits into memory, and the window changes over to it; the path offers none and the
window stays as it is; or the path cannot be followed, which is an error.

As long as no path ends in an error, going on any number of times leads past the programs that fit
up to the first that does not, and there it stays (`Window.nextPrograms_gone`). The machine, the
fault, the position and the caption change together or not at all (`programs_in_turn`).
-/

namespace Chip8

namespace ProgramFile

/-- A path offers a program: it leads to a file that fits into memory. -/
def Offers (tree : FileTree) (path : String) (program : List Byte) : Prop :=
  read tree path = .ok program ∧ program.length ≤ Machine.programLimit

/-- A path is clear: there is a file at it, or it is refused as missing. -/
def Clear (tree : FileTree) (path : String) : Prop :=
  (∃ program, read tree path = .ok program) ∨ read tree path = .error (.refused (.missing path))

instance (tree : FileTree) (path : String) : Decidable (∃ program, Offers tree path program) :=
  match found : read tree path with
  | .error _ => isFalse fun ⟨_, read, _⟩ => by cases found.symm.trans read
  | .ok program =>
      if fits : program.length ≤ Machine.programLimit then isTrue ⟨program, found, fits⟩
      else isFalse fun ⟨_, read, fit⟩ => by
        cases found.symm.trans read
        exact fits fit

variable {tree : FileTree} {path : String}

theorem Clear.readable (clear : Clear tree path) (e : FileError) :
    read tree path ≠ .error (.unreadable e) := by
  rcases clear with ⟨program, found⟩ | missing
  · rw [found]
    simp
  · rw [missing]
    simp

end ProgramFile

namespace Window

variable {tree : FileTree} {w next last : Window} {path : String} {program : List Byte}

/-! ### What can come of going on -/

/-- The path of the next program, unless there is no list to go through. -/
def ahead? (w : Window) : Option String :=
  w.programs[(w.position + 1) % w.programs.length]?

/-- A window is the same but for the journal of its runner. -/
structure Keeps (w next : Window) : Prop where
  runner : next.runner.Matches w.runner
  others : next = { w with runner := next.runner }

/-- A window changed over to a program: its machine is a fresh one with the program, on the next
random source, and asks for a picture, no fault is left, and the caption and the position are those
of the program. -/
structure ChangesTo (w : Window) (path : String) (program : List Byte) (next : Window) : Prop where
  noise : next.machine.noise = w.sources 0
  machine : ∃ start,
    Machine.ofProgram w.machine.mode next.machine.noise program = .ok start ∧
      next.machine = { start with redraw := true }
  cycles : next.runner.cycles = w.runner.cycles
  fault : next.runner.fault = none
  others : next = { w with
    runner := next.runner
    frame := { w.frame with caption := Path.title path }
    position := (w.position + 1) % w.programs.length
    sources := fun k => w.sources (k + 1) }

/-- What can come of going on to the next program. -/
inductive Turn (tree : FileTree) (w : Window) : Except FileError Window → Prop where
  | alone (none : w.programs = []) : Turn tree w (.ok w)
  | failed {path : String} {e : FileError} (ahead : w.ahead? = some path)
      (unreadable : ProgramFile.read tree path = .error (.unreadable e)) : Turn tree w (.error e)
  | kept {path : String} {next : Window} (ahead : w.ahead? = some path)
      (refused : ∀ program, ¬ ProgramFile.Offers tree path program)
      (readable : ∀ e, ProgramFile.read tree path ≠ .error (.unreadable e))
      (keeps : w.Keeps next) : Turn tree w (.ok next)
  | changed {path : String} {program : List Byte} {next : Window} (ahead : w.ahead? = some path)
      (offers : ProgramFile.Offers tree path program) (changes : w.ChangesTo path program next) :
      Turn tree w (.ok next)

namespace Keeps

theorem refl (w : Window) : w.Keeps w :=
  ⟨.refl _, rfl⟩

theorem trans (first : w.Keeps next) (second : next.Keeps last) : w.Keeps last where
  runner := second.runner.trans first.runner
  others := by rw [second.others, first.others]

/-- A refused program leaves notices and nothing else. -/
theorem note (w : Window) (notices : List Notice) :
    w.Keeps { w with runner := w.runner.note notices } :=
  ⟨.note (.refl _) _ [], rfl⟩

end Keeps

theorem ahead?_eq_none_iff : w.ahead? = none ↔ w.programs = [] := by
  unfold ahead?
  rw [List.getElem?_eq_none_iff]
  constructor
  · intro beyond
    cases shape : w.programs with
    | nil => rfl
    | cons first rest =>
        rw [shape] at beyond
        have inside := Nat.mod_lt (w.position + 1) (show 0 < (first :: rest).length by simp)
        omega
  · intro none
    simp [none]

/-- One of the four comes of going on. -/
theorem turn (tree : FileTree) (w : Window) : w.Turn tree (w.nextProgram tree) := by
  unfold nextProgram
  cases ahead : w.ahead? with
  | none =>
      have none := ahead
      unfold ahead? at none
      simp only [none]
      exact .alone (ahead?_eq_none_iff.mp ahead)
  | some path =>
      have entry := ahead
      unfold ahead? at entry
      simp only [entry]
      cases found : ProgramFile.read tree path with
      | error e =>
          have refused : ∀ program, ¬ ProgramFile.Offers tree path program := by
            rintro program ⟨read, -⟩
            rw [found] at read
            cases read
          cases e with
          | unreadable e => exact .failed ahead found
          | refused refusal =>
              refine .kept ahead refused ?_ (.note w _)
              intro e unreadable
              rw [found] at unreadable
              cases unreadable
      | ok program =>
          by_cases fits : program.length ≤ Machine.programLimit
          · obtain ⟨switched, start, accepted, noise, made, same⟩ :=
              (w.runner.note [.fileRead program.length path]).switched_matches (w.sources 0) fits
            have machine : switched.machine = start := same.machine
            simp only [accepted]
            exact .changed ahead ⟨found, fits⟩
              { noise := noise
                machine := ⟨start, made, by rw [← machine]; rfl⟩
                cycles := same.cycles.trans (Runner.new_cycles _ start)
                fault := same.fault
                others := rfl }
          · have long : Machine.programLimit < program.length := Nat.lt_of_not_le fits
            simp only [Runner.switchProgram_of_tooLarge long]
            refine .kept ahead ?_ ?_ (.note w [_, _])
            · rintro other ⟨read, fit⟩
              rw [found] at read
              cases read
              exact fits fit
            · intro e unreadable
              rw [found] at unreadable
              cases unreadable

/-! ### Going on again and again -/

/-- A window gone on to the next program a number of times; an error ends it. -/
def nextPrograms (tree : FileTree) (w : Window) : Nat → Except FileError Window
  | 0 => .ok w
  | count + 1 =>
      match nextPrograms tree w count with
      | .ok reached => reached.nextProgram tree
      | .error e => .error e

/-- A window runs the program at its position from the start, under the program's title. -/
def InStep (tree : FileTree) (w : Window) : Prop :=
  ∃ path program start, w.programs[w.position]? = some path ∧
    ProgramFile.Offers tree path program ∧
    Machine.ofProgram w.machine.mode w.machine.noise program = .ok start ∧
    w.machine = { start with redraw := true } ∧ w.runner.fault = none ∧
    w.frame.caption = Path.title path

/-- The program some places ahead of a window fits into memory. -/
def Good (tree : FileTree) (w : Window) (distance : Nat) : Prop :=
  ∃ path program, w.programs[(w.position + distance) % w.programs.length]? = some path ∧
    ProgramFile.Offers tree path program

instance (tree : FileTree) (w : Window) (distance : Nat) : Decidable (w.Good tree distance) :=
  match entry : w.programs[(w.position + distance) % w.programs.length]? with
  | none => isFalse fun ⟨_, _, other, _⟩ => by cases entry.symm.trans other
  | some path =>
      if offers : ∃ program, ProgramFile.Offers tree path program then
        isTrue (offers.elim fun program fits => ⟨path, program, entry, fits⟩)
      else isFalse fun ⟨_, program, other, fits⟩ => by
        cases entry.symm.trans other
        exact offers ⟨program, fits⟩

/-- What the call that goes on from a window comes to: the window changes over to a good program
with everything that belongs to it, and stays as it is before any other. -/
structure Advances (tree : FileTree) (w next : Window) : Prop where
  done : w.nextProgram tree = .ok next
  changed : w.Good tree 1 → next.InStep tree ∧ next.machine.mode = w.machine.mode ∧
    next.position = (w.position + 1) % w.programs.length
  kept : ¬ w.Good tree 1 → w.Keeps next
  programs : next.programs = w.programs

theorem ChangesTo.mode (changes : w.ChangesTo path program next) :
    next.machine.mode = w.machine.mode := by
  obtain ⟨start, made, machine⟩ := changes.machine
  rw [machine, Machine.ofProgram_frame made]
  rfl

theorem ChangesTo.inStep (changes : w.ChangesTo path program next) (ahead : w.ahead? = some path)
    (offers : ProgramFile.Offers tree path program) : next.InStep tree := by
  obtain ⟨start, made, machine⟩ := changes.machine
  refine ⟨path, program, start, ?_, offers, ?_, machine, changes.fault, ?_⟩
  · rw [changes.others]
    exact ahead
  · rw [changes.mode]
    exact made
  · rw [changes.others]

theorem advances (some : w.programs ≠ [])
    (clear : ∀ path ∈ w.programs, ProgramFile.Clear tree path) :
    ∃ next, w.Advances tree next := by
  have turn := w.turn tree
  generalize outcome : w.nextProgram tree = result at turn
  cases turn with
  | alone none => exact absurd none some
  | failed ahead unreadable =>
      exact absurd unreadable ((clear _ (List.mem_of_getElem? ahead)).readable _)
  | @kept path next ahead refused readable keeps =>
      refine ⟨next, outcome, ?_, fun _ => keeps, ?_⟩
      · rintro ⟨other, program, same, offers⟩
        cases ahead.symm.trans same
        exact absurd offers (refused program)
      · rw [keeps.others]
  | @changed path program next ahead offers changes =>
      refine ⟨next, outcome, ?_, ?_, ?_⟩
      · intro _
        refine ⟨changes.inStep ahead offers, changes.mode, ?_⟩
        rw [changes.others]
      · intro bad
        exact absurd ⟨path, program, ahead, offers⟩ bad
      · rw [changes.others]

/-- A window whose runner only made notes runs the program that it ran. -/
theorem Keeps.inStep (keeps : w.Keeps next) (inStep : w.InStep tree) : next.InStep tree := by
  obtain ⟨path, program, start, entry, offers, made, machine, fault, caption⟩ := inStep
  have same : next.machine = w.machine := keeps.runner.machine
  refine ⟨path, program, start, ?_, offers, ?_, ?_, ?_, ?_⟩
  · rw [keeps.others]
    exact entry
  · rw [same]
    exact made
  · rw [same]
    exact machine
  · rw [keeps.runner.fault]
    exact fault
  · rw [keeps.others]
    exact caption

/-- Every place of the circle is ahead by at most its length. -/
theorem good_of_all (all : ∀ b, 1 ≤ b → b ≤ w.programs.length → w.Good tree b)
    (inside : w.position < w.programs.length) {b : Nat} (ahead : 1 ≤ b) : w.Good tree b := by
  have round := Nat.mod_lt (b - 1) (Nat.zero_lt_of_lt inside)
  obtain ⟨path, program, entry, offers⟩ :=
    all ((b - 1) % w.programs.length + 1) (by omega) (by omega)
  refine ⟨path, program, ?_, offers⟩
  have same : (w.position + ((b - 1) % w.programs.length + 1)) % w.programs.length =
      (w.position + b) % w.programs.length := by
    calc (w.position + ((b - 1) % w.programs.length + 1)) % w.programs.length
        = ((b - 1) % w.programs.length + (w.position + 1)) % w.programs.length := by
          rw [Nat.add_comm w.position, Nat.add_assoc, Nat.add_comm 1]
      _ = (b - 1 + (w.position + 1)) % w.programs.length := Nat.mod_add_mod ..
      _ = (w.position + b) % w.programs.length := by
          rw [show b - 1 + (w.position + 1) = w.position + b by omega]
  rw [← same]
  exact entry

/-- A window has gone on a number of times, and some of these calls, the first ones, took it to the
next program. -/
structure Gone (tree : FileTree) (w : Window) (count moved : Nat) (last : Window) : Prop where
  done : w.nextPrograms tree count = .ok last
  programs : last.programs = w.programs
  mode : last.machine.mode = w.machine.mode
  position : last.position = (w.position + moved) % w.programs.length
  within : moved ≤ count
  good : ∀ a, 1 ≤ a → a ≤ moved → w.Good tree a
  stays : moved < count → ¬ w.Good tree (moved + 1)
  kept : moved = 0 → w.Keeps last
  inStep : 0 < moved → last.InStep tree

namespace Gone

variable {count moved : Nat}

theorem start (inside : w.position < w.programs.length) : w.Gone tree 0 0 w where
  done := rfl
  programs := rfl
  mode := rfl
  position := (Nat.mod_eq_of_lt inside).symm
  within := Nat.le_refl 0
  good a low high := by omega
  stays none := by omega
  kept _ := .refl w
  inStep none := by omega

/-- What is next for the window that has gone on is one place further ahead of the first window. -/
theorem good_one_iff (gone : w.Gone tree count moved last) :
    last.Good tree 1 ↔ w.Good tree (moved + 1) := by
  unfold Good
  rw [gone.programs, gone.position, Nat.mod_add_mod, Nat.add_assoc]

/-- A window that did not change over to a program ahead stays before it. -/
theorem advance (gone : w.Gone tree count moved last) (advances : last.Advances tree next) :
    ∃ moved', w.Gone tree (count + 1) moved' next := by
  have done : w.nextPrograms tree (count + 1) = .ok next := by
    simp only [nextPrograms, gone.done, advances.done]
  have programs := advances.programs.trans gone.programs
  by_cases ahead : last.Good tree 1
  · obtain ⟨inStep, mode, position⟩ := advances.changed ahead
    have good := gone.good_one_iff.mp ahead
    have all : moved = count := by
      refine Nat.le_antisymm gone.within (Nat.le_of_not_lt fun fewer => ?_)
      exact gone.stays fewer good
    refine ⟨moved + 1, {
      done := done
      programs := programs
      mode := mode.trans gone.mode
      position := ?_
      within := by omega
      good := ?_
      stays := by omega
      kept := by omega
      inStep := fun _ => inStep }⟩
    · rw [position, gone.programs, gone.position, Nat.mod_add_mod, Nat.add_assoc]
    · intro a low high
      rcases Nat.lt_or_eq_of_le high with before | rfl
      · exact gone.good a low (by omega)
      · exact good
  · have keeps := advances.kept ahead
    refine ⟨moved, {
      done := done
      programs := programs
      mode := ?_
      position := ?_
      within := Nat.le_succ_of_le gone.within
      good := gone.good
      stays := fun _ good => ahead (gone.good_one_iff.mpr good)
      kept := fun none => (gone.kept none).trans keeps
      inStep := fun some => keeps.inStep (gone.inStep some) }⟩
    · exact (congrArg Machine.mode keeps.runner.machine).trans gone.mode
    · rw [keeps.others]
      exact gone.position

/-- Without a bad program on the circle every call changes the program. -/
theorem moved_of_all (gone : w.Gone tree count moved last)
    (inside : w.position < w.programs.length)
    (all : ∀ b, 1 ≤ b → b ≤ w.programs.length → w.Good tree b) : moved = count := by
  refine Nat.le_antisymm gone.within (Nat.le_of_not_lt fun fewer => ?_)
  exact gone.stays fewer (good_of_all all inside (Nat.succ_pos moved))

/-- The first bad program ahead is where the calls stop to change the program. -/
theorem moved_of_first (gone : w.Gone tree count moved last) {b : Nat} (bad : ¬ w.Good tree b)
    (ahead : 1 ≤ b) (first : ∀ a, 1 ≤ a → a < b → w.Good tree a) : moved = min count (b - 1) := by
  have within := gone.within
  have before : moved < b := Nat.lt_of_not_le fun past => bad (gone.good b ahead past)
  by_cases fewer : moved < count
  · have reached : b ≤ moved + 1 := by
      refine Nat.le_of_not_lt fun short => ?_
      exact gone.stays fewer (first (moved + 1) (by omega) short)
    omega
  · omega

/-- As long as no path ends in an error, the window that has gone on can go on. -/
theorem exists_advances (gone : w.Gone tree count moved last)
    (inside : w.position < w.programs.length)
    (clear : ∀ path ∈ w.programs, ProgramFile.Clear tree path) :
    ∃ next, last.Advances tree next := by
  rw [← gone.programs] at inside clear
  exact last.advances (List.ne_nil_of_length_pos (Nat.zero_lt_of_lt inside)) clear

end Gone

theorem nextPrograms_gone (inside : w.position < w.programs.length)
    (clear : ∀ path ∈ w.programs, ProgramFile.Clear tree path) (count : Nat) :
    ∃ moved last, w.Gone tree count moved last := by
  induction count with
  | zero => exact ⟨0, w, .start inside⟩
  | succ count ih =>
      obtain ⟨moved, last, gone⟩ := ih
      obtain ⟨next, advances⟩ := gone.exists_advances inside clear
      obtain ⟨moved', further⟩ := gone.advance advances
      exact ⟨moved', next, further⟩

/-- Programs come in turn. Let a window stand at one of its programs, and let no path of the list
end in an error. Then going on is never an error, however often it is done. If all programs of the
circle fit into memory, every call takes the window one place on; otherwise it gets up to the
program in front of the first that is refused, and stays there. Every call either changes over to
the next program, with its machine, its position and its title, or leaves all of them as they are,
so the program that runs, the position and the caption stay in step. -/
theorem programs_in_turn (tree : FileTree) (w : Window) (inside : w.position < w.programs.length)
    (clear : ∀ path ∈ w.programs, ProgramFile.Clear tree path) (count : Nat) :
    let n := w.programs.length
    ∃ last moved, w.nextPrograms tree count = .ok last ∧
      last.position = (w.position + moved) % n ∧
      ((∀ b, 1 ≤ b → b ≤ n → w.Good tree b) → moved = count) ∧
      (∀ b, 1 ≤ b → b ≤ n → ¬ w.Good tree b → (∀ a, 1 ≤ a → a < b → w.Good tree a) →
        moved = min count (b - 1)) ∧
      (moved = 0 → w.Keeps last) ∧
      (0 < moved → last.InStep tree ∧ last.machine.mode = w.machine.mode) ∧
      (w.InStep tree → last.InStep tree) ∧
      ∀ j, j < count → ∃ before after, w.nextPrograms tree j = .ok before ∧
        w.nextPrograms tree (j + 1) = .ok after ∧ before.Advances tree after := by
  intro n
  obtain ⟨moved, last, gone⟩ := nextPrograms_gone inside clear count
  refine ⟨last, moved, gone.done, gone.position, gone.moved_of_all inside, ?_, gone.kept, ?_, ?_,
    ?_⟩
  · intro b ahead _ bad first
    exact gone.moved_of_first bad ahead first
  · intro some
    exact ⟨gone.inStep some, gone.mode⟩
  · intro inStep
    rcases Nat.eq_zero_or_pos moved with none | some
    · exact (gone.kept none).inStep inStep
    · exact gone.inStep some
  · intro j within
    obtain ⟨_, before, reached⟩ := nextPrograms_gone inside clear j
    obtain ⟨after, advances⟩ := reached.exists_advances inside clear
    refine ⟨before, after, reached.done, ?_, advances⟩
    simp only [nextPrograms, reached.done, advances.done]

def shelf : FileTree :=
  ⟨[], [(["a.ch8"], .file [0x12, 0x00]), (["b.ch8"], .file [0x61, 0x42])]⟩

def browsing : Window where
  runner := (Runner.new (Machine.fresh { strict := true } .silent) 10).togglePause
  frame := ⟨1, Nat.zero_lt_one, 64, 32, "a"⟩
  programs := ["a.ch8", "b.ch8", "c.ch8"]
  sources := fun _ => .silent
  audible := false

theorem shelf_read :
    ProgramFile.read shelf "a.ch8" = .ok [0x12, 0x00] ∧
      ProgramFile.read shelf "b.ch8" = .ok [0x61, 0x42] ∧
      ProgramFile.read shelf "c.ch8" = .error (.refused (.missing "c.ch8")) :=
  ⟨rfl, rfl, rfl⟩

theorem browsing_clear : ∀ path ∈ browsing.programs, ProgramFile.Clear shelf path := by
  obtain ⟨first, second, third⟩ := shelf_read
  simp only [browsing, List.mem_cons, List.not_mem_nil, or_false]
  rintro path (rfl | rfl | rfl)
  · exact .inl ⟨_, first⟩
  · exact .inl ⟨_, second⟩
  · exact .inr third

/-- Of five calls the first leads to the second program, and the others end before the path that
leads nowhere. -/
theorem browsing_stays_at_second :
    browsing.position < browsing.programs.length ∧
      (∀ path ∈ browsing.programs, ProgramFile.Clear shelf path) ∧
      ∃ last, browsing.nextPrograms shelf 5 = .ok last ∧ last.position = 1 ∧
        last.InStep shelf ∧ last.machine.mode = { strict := true } := by
  have inside : browsing.position < browsing.programs.length := by decide
  have good : ∀ a, 1 ≤ a → a < 2 → browsing.Good shelf a := by
    intro a low high
    obtain rfl : a = 1 := by omega
    exact ⟨_, _, rfl, shelf_read.2.1, by decide⟩
  have bad : ¬ browsing.Good shelf 2 := by
    rintro ⟨path, program, entry, found, -⟩
    cases Option.some.inj entry
    rw [shelf_read.2.2] at found
    cases found
  obtain ⟨last, moved, done, position, -, stays, -, inStep, -⟩ :=
    programs_in_turn shelf browsing inside browsing_clear 5
  obtain rfl : moved = 1 := stays 2 (by decide) (by decide) bad good
  obtain ⟨runs, mode⟩ := inStep (by decide)
  exact ⟨inside, browsing_clear, last, done, position, runs, mode⟩

end Window

end Chip8
