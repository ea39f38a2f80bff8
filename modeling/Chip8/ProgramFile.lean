import Chip8.FileTree
import Chip8.Notice

/-!
Programs in files. A path that leads nowhere or to a folder is refused as missing, and a program
that does not fit into memory is refused for its size; every other failure to read is an error of
the file tree. The neighbours of a path are the program files of its folder in one fixed cyclic
order, entered at the path.
-/

namespace Chip8

/-- Why a program is not taken. -/
inductive Refusal where
  | missing (path : String)
  | tooLarge (e : TooLarge)
  deriving DecidableEq, Repr

namespace Refusal

def message : Refusal → String
  | .missing path => "Could not find ROM at " ++ path
  | .tooLarge e => e.message

end Refusal

/-- Why a program in a file does not run. -/
inductive ProgramError where
  | refused (refusal : Refusal)
  | unreadable (e : FileError)
  deriving DecidableEq, Repr

namespace ProgramFile

def read (tree : FileTree) (path : String) : Except ProgramError (List Byte) :=
  match tree.read path with
  | .ok program => .ok program
  | .error (.notFound _) | .error (.isFolder _) => .error (.refused (.missing path))
  | .error e => .error (.unreadable e)

def machine (tree : FileTree) (path : String) (mode : Mode) (noise : Noise) :
    Reported (Except ProgramError Machine) :=
  match read tree path with
  | .error e => ⟨.error e, []⟩
  | .ok program =>
      let found := Notice.fileRead program.length path
      match Machine.ofProgram mode noise program with
      | .error e => ⟨.error (.refused (.tooLarge e)), [found]⟩
      | .ok machine => ⟨.ok machine, [found, .programLoaded program.length]⟩

/-- Does a name end as program files do, whatever the case of its letters? -/
def isProgramName (name : String) : Bool :=
  ((name.toList.reverse.take 4).map Char.toLower).reverse == ".ch8".toList

/-- Puts a name to its place among names in strictly ascending order of their code points. -/
def insertName (name : String) : List String → List String
  | [] => [name]
  | other :: rest =>
      if name < other then name :: other :: rest
      else if name = other then other :: rest
      else other :: insertName name rest

def sortedNames (names : List String) : List String :=
  names.foldr insertName []

/-- A list turned around so that it begins with a name. -/
def startingWith (name : String) (names : List String) : List String :=
  names.dropWhile (· != name) ++ names.takeWhile (· != name)

/-- The program files next to a path, and the path itself whatever its name, in the order of their
names from the path on. All are given as paths from the root. -/
def neighbours (tree : FileTree) (path : String) : Except FileError (List String) := do
  let root := Path.root path
  let place := tree.resolve path
  let folder := Path.above place
  let name := Path.lastName place
  let names ← tree.list root folder
  let ordered := sortedNames (name :: names.filter isProgramName)
  return (startingWith name ordered).map fun other => Path.text root (folder ++ [other])

end ProgramFile

end Chip8
