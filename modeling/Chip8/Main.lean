import Chip8.Program

/-!
The command line. What the program's path leads along is read from the disk into a file tree, the
pure program runs on it, and its report is printed. There is no screen and no speaker here: a
session in a window goes by the lines of the standard input. Folders are not listed, so the first
line names the files next to the program that are to be read as well. Every other line holds the
events of one pass: `+q` presses a key, `-q` lets it go, and `quit` closes the window.
-/

namespace Chip8

/-- Reads what stands at a place of the disk, which may be nothing, into a tree. -/
def readPlace (tree : FileTree) (place : List String) : IO FileTree := do
  try
    let bytes ← IO.FS.readBinFile (Path.text "/" place)
    return tree.add place (.file (bytes.toList.map fun b => BitVec.ofNat 8 b.toNat))
  catch e =>
    match e with
    | .inappropriateType _ 21 _ => return tree.addFolder place
    | _ => return tree

/-- The places that names lead along from a place on. -/
def placesAlong (place : List String) : List String → List (List String)
  | [] => [place]
  | name :: rest =>
      let next :=
        if Path.isStay name then place
        else if name = ".." then Path.above place
        else place ++ [name]
      place :: placesAlong next rest

/-- The part of the disk that a path leads along, with files that stand next to its end. -/
def readTree (path : String) (others : List String) : IO FileTree := do
  let home := Path.resolve [] (Path.names ((← IO.getEnv "PWD").getD "/"))
  let tree := FileTree.empty home
  let folder := Path.above (tree.resolve path)
  let places := placesAlong (tree.start path) (Path.names path) ++
    others.map fun name => folder ++ [name]
  places.foldlM readPlace tree

def readEvent (word : String) : Event :=
  match word.toList with
  | '+' :: key => .keyDown (String.ofList key)
  | '-' :: key => .keyUp (String.ofList key)
  | other => if String.ofList other = "quit" then .close else .other

/-- The words of a line, which stand between spaces. -/
def lineWords (line : String) : List String :=
  ((Text.pieces ' ' (line.toList.filter (· != '\n'))).filter (!·.isEmpty)).map String.ofList

/-- One batch of events for each line up to the end of the input. -/
def readBatches (input : IO.FS.Stream) : IO (List (List Event)) := do
  let mut batches := #[]
  repeat
    let line ← input.getLine
    if line.isEmpty then break
    batches := batches.push ((lineWords line).map readEvent)
  return batches.toList

def usageText : String :=
  "usage: chip8vm [-h] [--scale SCALE] [--clock CLOCK] [--legacy-store]\n" ++
  "               [--strict] [--tone TONE] [--headless] [--steps STEPS] [-v]\n" ++
  "               rom"

/-- Prints a report and gives the code to exit with. -/
def printReport (report : Program.Report) : IO UInt32 := do
  report.out.forM IO.println
  report.err.forM IO.eprintln
  match report.ending with
  | .exit code => return code.toUInt32
  | .help =>
      IO.println usageText
      return 0
  | .usage e =>
      IO.eprintln usageText
      IO.eprintln e.text
      return 2
  | .failed e =>
      IO.eprintln e.message
      return 1

/-- Runs the program on the words of the command line. -/
def runProgram (words : List String) : IO UInt32 := do
  let seed := (← IO.monoNanosNow).toUInt64
  let run (tree : FileTree) (batches : List (List Event)) : IO UInt32 :=
    printReport (Program.run tree .obliging (fun k => .ofSeed (seed + k.toUInt64)) false batches
      words)
  match CommandLine.parse words with
  | .error _ => run (FileTree.empty []) []
  | .ok settings =>
      if settings.headless then run (← readTree settings.program []) []
      else
        let input ← IO.getStdin
        let tree ← readTree settings.program (lineWords (← input.getLine))
        run tree (← readBatches input)

end Chip8

def main (words : List String) : IO UInt32 :=
  Chip8.runProgram words
