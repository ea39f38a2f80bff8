import Chip8.Memory
import Chip8.Path
import Chip8.Text

/-!
A tree of files and folders. Relative paths start at the tree's home. Following a path checks every
step: the place so far has to be a folder, also for a step that stays or goes up, and the next
name has to be short enough and there. The first step that fails decides the error.
-/

namespace Chip8

inductive Entry where
  | file (contents : List Byte)
  | folder
  deriving DecidableEq, Repr

/-- The places that are taken besides the root, and the place where relative paths start. -/
structure FileTree where
  home : List String
  entries : List (List String × Entry)

/-- Why a path cannot be followed to what is asked for. -/
inductive FileError where
  | notFound (path : String)
  | notFolder (path : String)
  | isFolder (path : String)
  | nameTooLong (path : String)
  | nullInPath
  deriving DecidableEq, Repr

namespace FileError

/-- An error number, what it stands for, and the path. -/
def numbered (number : Nat) (meaning path : String) : String :=
  "[Errno " ++ toString number ++ "] " ++ meaning ++ ": " ++ Text.quoted path

def message : FileError → String
  | .notFound path => numbered 2 "No such file or directory" path
  | .notFolder path => numbered 20 "Not a directory" path
  | .isFolder path => numbered 21 "Is a directory" path
  | .nameTooLong path => numbered 36 "File name too long" path
  | .nullInPath => "embedded null byte"

end FileError

namespace FileTree

/-- The most bytes of a name. -/
def nameLimit : Nat := 255

/-- The most bytes of a path. -/
def pathLimit : Nat := 4095

/-- What stands at a place; the root is a folder. -/
def entry? (tree : FileTree) (place : List String) : Option Entry :=
  if place = [] then some .folder
  else (tree.entries.find? fun taken => taken.1 == place).map (·.2)

def isFolder (tree : FileTree) (place : List String) : Bool :=
  tree.entry? place == some .folder

/-- Follows names from a place on; errors name the path that is being followed. -/
def walk (tree : FileTree) (path : String) (place : List String) :
    List String → Except FileError (List String)
  | [] => .ok place
  | name :: rest =>
      if !tree.isFolder place then .error (.notFolder path)
      else if Path.isStay name then walk tree path place rest
      else if name = ".." then walk tree path (Path.above place) rest
      else if nameLimit < name.utf8ByteSize then .error (.nameTooLong path)
      else if (tree.entry? (place ++ [name])).isSome then walk tree path (place ++ [name]) rest
      else .error (.notFound path)

/-- Where a path starts: at the root, or at home. -/
def start (tree : FileTree) (path : String) : List String :=
  if Path.isAbsolute path then [] else tree.home

/-- The place of a path by its text alone, whether anything stands there or not. -/
def resolve (tree : FileTree) (path : String) : List String :=
  Path.resolve (tree.start path) (Path.names path)

def read (tree : FileTree) (path : String) : Except FileError (List Byte) :=
  if path.toList.contains '\x00' then .error .nullInPath
  else if pathLimit < path.utf8ByteSize then .error (.nameTooLong path)
  else if path = "" then .error (.notFound path)
  else do
    let place ← tree.walk path (tree.start path) (Path.names path)
    match tree.entry? place with
    | some (.file contents) => return contents
    | some .folder => .error (.isFolder path)
    | none => .error (.notFound path)

def namesIn (tree : FileTree) (folder : List String) : List String :=
  tree.entries.filterMap fun (place, _) =>
    match place.getLast? with
    | some name => if place.dropLast = folder then some name else none
    | none => none

/-- The names in the folder at a place. Errors name it behind the root as it is written. -/
def list (tree : FileTree) (root : String) (folder : List String) :
    Except FileError (List String) :=
  let path := Path.text root folder
  if path.toList.contains '\x00' then .error .nullInPath
  else if pathLimit < path.utf8ByteSize then .error (.nameTooLong path)
  else do
    let place ← tree.walk path [] folder
    if tree.isFolder place then return tree.namesIn place else .error (.notFolder path)

/-! ### Building -/

/-- A tree with nothing in it but the folders down to its home. -/
def empty (home : List String) : FileTree where
  home := home
  entries := (List.range home.length).map fun depth => (home.take (depth + 1), .folder)

/-- Puts a folder to a place unless the place is taken. -/
def addFolder (tree : FileTree) (place : List String) : FileTree :=
  if (tree.entry? place).isSome then tree
  else { tree with entries := tree.entries ++ [(place, .folder)] }

/-- Puts an entry to a place, and folders to the places above it that are free. -/
def add (tree : FileTree) (place : List String) (entry : Entry) : FileTree :=
  let above := (List.range place.length).map place.take
  let tree := above.foldl addFolder tree
  { tree with entries := tree.entries.filter (·.1 != place) ++ [(place, entry)] }

end FileTree

end Chip8
