import Chip8.Proofs.Cycling
import Chip8.Proofs.Lookup
import Chip8.Proofs.Reports

/-!
What the program makes of a path. A path that holds a file is read and a path that misses is
refused, and both can be lived with: a run without a window comes to an exit code
(`Program.exists_exit`), and a window goes on to the next program or stays at the one it runs. A
path that is barred is neither read nor refused. Its error is no refusal, so it gets past both
(`ProgramFile.errors_escape_iff_barred`).
-/

namespace Chip8

namespace Program

variable {tree : FileTree} {toolkit : Toolkit} {words : List String} {settings : Settings}

/-! ### Exit codes -/

/-- A run without a window whose path is not barred comes to an exit code. -/
theorem exists_exit (sources : Nat → Noise) (audible : Bool) (batches : List (List Event))
    {steps : Int} (parsed : CommandLine.parse words = .ok settings)
    (unseen : settings.headless = true) (given : settings.steps = some steps)
    (unbarred : ∀ e, ¬ tree.Bars settings.program e) :
    ∃ code, code ≤ 2 ∧ (run tree toolkit sources audible batches words).ending = .exit code := by
  rcases tree.holds_or_misses_or_bars settings.program with ⟨program, holds⟩ | misses | ⟨e, bars⟩
  · have found := ProgramFile.read_of_holds holds
    by_cases fits : program.length ≤ Machine.programLimit
    · have made : Machine.ofProgram settings.mode (sources 0) program = _ := if_pos fits
      obtain ⟨notices, shape⟩ := run_of_fits audible batches parsed unseen found made
      have ended := headless_endsWith (s := ⟨settings, _, notices⟩) (ofProgram_starts made).1 given
      rw [shape]
      exact ⟨_, by split <;> decide, ended.ending⟩
    · rw [run_of_tooLarge parsed found (Nat.lt_of_not_le fits)]
      exact ⟨2, Nat.le_refl 2, rfl⟩
  · rw [run_of_unread parsed (ProgramFile.read_of_misses misses)]
    exact ⟨2, Nat.le_refl 2, rfl⟩
  · exact absurd bars (unbarred e)

/-- The error of a barred path ends a run. -/
theorem ending_of_bars (sources : Nat → Noise) (audible : Bool) (batches : List (List Event))
    {e : FileError} (parsed : CommandLine.parse words = .ok settings)
    (bars : tree.Bars settings.program e) :
    (run tree toolkit sources audible batches words).ending = .failed (.file e) := by
  rw [run_of_unread parsed (ProgramFile.read_of_bars bars)]

end Program

namespace Window

variable {tree : FileTree} {w : Window} {path : String} {e : FileError}

/-! ### Going on -/

/-- Going on to the next program is an error exactly if its path is barred. -/
theorem nextProgram_eq_error_iff (ahead : w.ahead? = some path) :
    w.nextProgram tree = .error e ↔ tree.Bars path e := by
  rw [← ProgramFile.read_eq_unreadable_iff]
  have turn := w.turn tree
  generalize w.nextProgram tree = outcome at turn
  cases turn with
  | alone none =>
      rw [ahead?_eq_none_iff.mpr none] at ahead
      cases ahead
  | failed other unreadable =>
      cases ahead.symm.trans other
      rw [unreadable]
      simp
  | kept other refused readable keeps =>
      cases ahead.symm.trans other
      exact ⟨nofun, fun unreadable => absurd unreadable (readable e)⟩
  | changed other offers changes =>
      cases ahead.symm.trans other
      rw [offers.1]
      exact ⟨nofun, nofun⟩

/-- A window stays as it is before a path that misses. -/
theorem nextProgram_of_misses (ahead : w.ahead? = some path) (misses : tree.Misses path) :
    ∃ next, w.nextProgram tree = .ok next ∧ w.Keeps next := by
  have refused := ProgramFile.read_of_misses misses
  have turn := w.turn tree
  generalize w.nextProgram tree = outcome at turn
  cases turn with
  | alone none => exact ⟨w, rfl, .refl w⟩
  | failed other unreadable =>
      cases ahead.symm.trans other
      cases refused.symm.trans unreadable
  | kept other refused readable keeps => exact ⟨_, rfl, keeps⟩
  | changed other offers changes =>
      cases ahead.symm.trans other
      cases refused.symm.trans offers.1

end Window

namespace ProgramFile

/-- What becomes of every path. It is read exactly if it holds a file, and what is read is the file;
it is refused exactly if it misses, and the refusal names it; and it is an error of its own exactly
if it is barred, by a null, by its length or that of a name, or since a name stands behind a file.
Such an error is no refusal. So a run without a window, with a path that is no option, comes to one
of the exit codes 0, 1 and 2 exactly if the path is not barred, and else the error ends it; and a
window that comes to the path goes on or stays as it is, and else the error gets past it. -/
theorem errors_escape_iff_barred (tree : FileTree) (toolkit : Toolkit) (sources : Nat → Noise)
    (audible : Bool) (batches : List (List Event)) (path : String) :
    (∀ program, read tree path = .ok program ↔ tree.Holds path program) ∧
    (∀ refusal, read tree path = .error (.refused refusal) ↔
      refusal = .missing path ∧ tree.Misses path) ∧
    (∀ e, read tree path = .error (.unreadable e) ↔ tree.Bars path e) ∧
    (path.toList.head? ≠ some '-' →
      let report := Program.run tree toolkit sources audible batches [path, "--headless"]
      ((∃ code, code ≤ 2 ∧ report.ending = .exit code) ↔ ∀ e, ¬ tree.Bars path e) ∧
      ∀ e, report.ending = .failed (.file e) ↔ tree.Bars path e) ∧
    ∀ w : Window, w.ahead? = some path →
      (∀ e, w.nextProgram tree = .error e ↔ tree.Bars path e) ∧
      (tree.Misses path → ∃ next, w.nextProgram tree = .ok next ∧ w.Keeps next) := by
  refine ⟨fun _ => read_eq_ok_iff, fun _ => read_eq_refused_iff, fun _ => read_eq_unreadable_iff,
    ?_, fun w ahead => ⟨fun _ => Window.nextProgram_eq_error_iff ahead,
      Window.nextProgram_of_misses ahead⟩⟩
  intro plain report
  have parsed := CommandLine.parse_headless plain
  have failed : ∀ e, tree.Bars path e → report.ending = .failed (.file e) :=
    fun e bars => Program.ending_of_bars sources audible batches parsed bars
  have exits : (∀ e, ¬ tree.Bars path e) → ∃ code, code ≤ 2 ∧ report.ending = .exit code :=
    fun unbarred => Program.exists_exit sources audible batches parsed rfl rfl unbarred
  -- A barred path has an error as its ending and any other an exit code, and no ending is both.
  refine ⟨⟨?_, exits⟩, fun e => ⟨fun ending => ?_, failed e⟩⟩
  · rintro ⟨code, -, ending⟩ e bars
    cases ending.symm.trans (failed e bars)
  · by_cases barred : ∃ e, tree.Bars path e
    · obtain ⟨other, bars⟩ := barred
      cases (failed other bars).symm.trans ending
      exact bars
    · obtain ⟨code, -, exit⟩ := exits fun e bars => barred ⟨e, bars⟩
      cases exit.symm.trans ending

def dead : FileTree :=
  ⟨[], [(["a"], .file [0x12, 0x00])]⟩

def comingTo (path : String) : Window :=
  { Window.browsing with programs := [path] }

theorem dead_escapes :
    dead.Holds "a" [0x12, 0x00] ∧
      (dead.Misses "b" ∧ ∃ next, (comingTo "b").nextProgram dead = .ok next ∧
        (comingTo "b").Keeps next) ∧
      dead.Bars "a/b" (.notFolder "a/b") ∧
      (Program.run dead .obliging Window.silence false [] ["a/b", "--headless"]).ending =
        .failed (.file (.notFolder "a/b")) ∧
      (comingTo "a/b").nextProgram dead = .error (.notFolder "a/b") := by
  obtain ⟨found, -⟩ := errors_escape_iff_barred dead .obliging Window.silence false [] "a"
  obtain ⟨-, refused, -, -, stays⟩ :=
    errors_escape_iff_barred dead .obliging Window.silence false [] "b"
  obtain ⟨-, -, unreadable, run, next⟩ :=
    errors_escape_iff_barred dead .obliging Window.silence false [] "a/b"
  have misses := ((refused (.missing "b")).mp rfl).2
  have bars := (unreadable (.notFolder "a/b")).mp rfl
  exact ⟨(found _).mp rfl, ⟨misses, (stays (comingTo "b") rfl).2 misses⟩, bars,
    ((run (by decide)).2 _).mpr bars, ((next (comingTo "a/b") rfl).1 _).mpr bars⟩

/-- Not every path is read or refused: a path that leads through a file is neither, its error ends a
run without an exit code, and it gets past a window. -/
theorem dead_is_not_refused :
    (¬ ∀ (tree : FileTree) (path : String),
      (∃ program, read tree path = .ok program) ∨
        read tree path = .error (.refused (.missing path))) ∧
    (¬ ∀ (tree : FileTree) (toolkit : Toolkit) (sources : Nat → Noise) (path : String),
      path.toList.head? ≠ some '-' →
        ∃ code, code ≤ 2 ∧
          (Program.run tree toolkit sources false [] [path, "--headless"]).ending =
            .exit code) ∧
    ¬ ∀ (tree : FileTree) (w : Window), ∃ next, w.nextProgram tree = .ok next := by
  have bars : dead.Bars "a/b" (.notFolder "a/b") := read_eq_unreadable_iff.mp rfl
  have plain : "a/b".toList.head? ≠ some '-' := by decide
  refine ⟨fun reads => ?_, fun exits => ?_, fun goesOn => ?_⟩
  · have unreadable := read_of_bars bars
    rcases reads dead "a/b" with ⟨program, found⟩ | refused
    · cases found.symm.trans unreadable
    · cases refused.symm.trans unreadable
  · obtain ⟨code, -, exit⟩ := exits dead .obliging Window.silence "a/b" plain
    have parsed := CommandLine.parse_headless plain
    cases exit.symm.trans (Program.ending_of_bars Window.silence false [] parsed bars)
  · obtain ⟨next, done⟩ := goesOn dead (comingTo "a/b")
    have failed := (Window.nextProgram_eq_error_iff (w := comingTo "a/b") rfl).mpr bars
    cases done.symm.trans failed

end ProgramFile

end Chip8
