import Chip8.Proofs.Agreement
import Chip8.Proofs.Faults
import Chip8.Proofs.Journals
import Chip8.Proofs.Loading

/-!
Starting over. There are two ways to start another program, and neither lets anything of what went
before through. A machine that was reset and loaded differs from a fresh machine with the program in
the request for a picture alone (`Machine.reload_agrees`), and a runner that changed to the program
differs from a new one around such a machine in its journal alone (`Runner.switched_matches`). No
move of a machine looks at the former and no operation of a runner at the latter, so whatever is
done next is answered alike and has the same outcome (`Runner.restarts_forget`). What is kept is the
mode, by a reset the random source, and by a runner the length of its ticks; a change of the program
brings a random source of its own.
-/

namespace Chip8

namespace Machine

variable {program : List Byte}

/-- After a reset a program finds a fresh machine, but for the request for a picture. -/
theorem reload_agrees (m : Machine) (fits : program.length ≤ programLimit) :
    ∃ reloaded start, m.reset.load program = .ok reloaded ∧
      ofProgram m.mode m.noise program = .ok start ∧ start.AgreesBut [.redraw] reloaded := by
  refine ⟨_, _, load_of_fits fits, load_of_fits fits, ?_⟩
  apply agreesBut_iff.mpr
  exact ⟨rfl, rfl⟩

end Machine

namespace Runner

variable {r : Runner} {program : List Byte}

/-- A runner that changed its program is a new one around a fresh machine, but for its journal. -/
theorem switched_matches (r : Runner) (noise : Noise)
    (fits : program.length ≤ Machine.programLimit) :
    ∃ switched start, r.switchProgram program noise = .ok switched ∧
      switched.machine.noise = noise ∧
      Machine.ofProgram r.machine.mode switched.machine.noise program = .ok start ∧
      switched.Matches (new start r.cycles) := by
  obtain ⟨start, made, source⟩ : ∃ start : Machine,
      Machine.ofProgram r.machine.mode noise program = .ok start ∧ start.noise = noise :=
    ⟨_, Machine.load_of_fits fits, rfl⟩
  refine ⟨_, start, switchProgram_of_made made, source, ?_, rfl, (r.new_cycles start).symm, rfl⟩
  change Machine.ofProgram r.machine.mode start.noise program = .ok start
  rw [source, made]

/-- Starting over forgets everything. Whatever a machine holds, after a reset and the loading of a
program any moves are answered as by a fresh machine with the program, in the same mode and on the
same random source, and the machine becomes the same but for the request for a picture. Whatever
became of a runner, after a change of the program any operations are answered as by a new runner
with ticks of the same length around such a machine on the source that came with the change, and the
machine and the fault become the same. -/
theorem restarts_forget (program : List Byte) (fits : program.length ≤ 3584) :
    (∀ m : Machine, ∃ reloaded start, m.reset.load program = .ok reloaded ∧
      Machine.ofProgram m.mode m.noise program = .ok start ∧
      ∀ moves, reloaded.answers moves = start.answers moves ∧
        ∃ redraw, reloaded.movedAll moves = { start.movedAll moves with redraw := redraw }) ∧
    (∀ (r : Runner) (noise : Noise), ∃ switched start,
      r.switchProgram program noise = .ok switched ∧ switched.machine.noise = noise ∧
      Machine.ofProgram r.machine.mode switched.machine.noise program = .ok start ∧
      ∀ operations,
        let anew := new start r.cycles
        switched.replies operations = anew.replies operations ∧
          (switched.performAll operations).machine = (anew.performAll operations).machine ∧
          (switched.performAll operations).fault = (anew.performAll operations).fault) := by
  constructor
  · intro m
    obtain ⟨reloaded, start, loaded, made, agrees⟩ := m.reload_agrees fits
    refine ⟨reloaded, start, loaded, made, ?_⟩
    intro moves
    have blind : ∀ before, before ++ [.step] <+: moves →
        (start.movedAll before).BlindTo [.redraw] := by
      intro before part
      exact Machine.blindTo_of_tight (by simp) (by simp) _
    obtain ⟨answers, agree⟩ := agrees.movedAll blind
    obtain ⟨update, -⟩ := Machine.agreesBut_iff.mp agree
    exact ⟨answers.symm, _, update⟩
  · intro r noise
    obtain ⟨switched, start, accepted, source, made, same⟩ := r.switched_matches noise fits
    refine ⟨switched, start, accepted, source, made, ?_⟩
    intro operations
    obtain ⟨replies, last⟩ := same.performAll operations
    exact ⟨replies, last.machine, last.fault⟩

def waiting : List Byte :=
  [0xF0, 0x0A, 0x1F, 0xFF]

/-- A paused machine with a fault and a key held down goes over to that program. -/
theorem strayReturn_restarts :
    let old := (new strayReturn 2).performAll [.tick, .act (.press 5), .togglePause]
    let moves := [Move.step, .act (.press 3), .countDown, .step, .step]
    let operations := [Operation.tick, .act (.press 3), .tick, .tick]
    waiting.length ≤ 3584 ∧
      old.fault = some (.stackUnderflow 0x202) ∧ old.machine.keypad.isPressed 5 = true ∧
      (∃ reloaded start, old.machine.reset.load waiting = .ok reloaded ∧
        Machine.ofProgram old.machine.mode old.machine.noise waiting = .ok start ∧
        reloaded.answers moves = start.answers moves) ∧
      ∃ switched start, old.switchProgram waiting .silent = .ok switched ∧
        Machine.ofProgram old.machine.mode switched.machine.noise waiting = .ok start ∧
        (switched.performAll operations).machine =
          ((new start old.cycles).performAll operations).machine ∧
        (switched.performAll operations).fault =
          ((new start old.cycles).performAll operations).fault ∧
        (switched.performAll operations).fault = some (.overrun 0xFFF) := by
  intro old moves operations
  have fits : waiting.length ≤ 3584 := by decide
  obtain ⟨reset, change⟩ := restarts_forget waiting fits
  obtain ⟨reloaded, start, loaded, made, alike⟩ := reset old.machine
  obtain ⟨switched, start', accepted, -, made', same⟩ := change old .silent
  obtain ⟨-, machine, fault⟩ := same operations
  have first : old.perform (.switchProgram waiting .silent) = switched := by
    simp only [perform, accepted]
  have last : ((old.perform (.switchProgram waiting .silent)).performAll operations).fault =
      some (.overrun 0xFFF) := by
    decide +kernel
  rw [first] at last
  exact ⟨fits, by decide +kernel, by decide +kernel,
    ⟨reloaded, start, loaded, made, (alike moves).1⟩,
    switched, start', accepted, made', machine, fault, last⟩

end Runner

end Chip8
