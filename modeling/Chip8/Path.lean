import Chip8.Text

/-!
Paths. A path is a text whose names stand between slashes; a place is the list of names from the
root of the file tree down, so the root is the empty list.
-/

namespace Chip8.Path

/-- The names of a path, empty ones included. -/
def names (path : String) : List String :=
  (Text.pieces '/' path.toList).map String.ofList

def isAbsolute (path : String) : Bool :=
  path.toList.head? == some '/'

/-- How the root is written at the start of a path: two slashes are kept, any other number of them
is as good as one. -/
def root (path : String) : String :=
  if (path.toList.takeWhile (· == '/')).length = 2 then "//" else "/"

/-- A place as a path behind the root. -/
def text (root : String) (place : List String) : String :=
  root ++ String.ofList (Text.joined '/' (place.map String.toList))

/-- Does a name stand for the place itself? -/
def isStay (name : String) : Bool :=
  name == "" || name == "."

/-- The place above, which for the root is the root itself. -/
def above (place : List String) : List String :=
  place.dropLast

/-- The last name of a place; the root has none. -/
def lastName (place : List String) : String :=
  place.getLast?.getD ""

/-- Follows names from a place on by their text alone. -/
def resolve (place : List String) : List String → List String
  | [] => place
  | name :: rest =>
      if isStay name then resolve place rest
      else if name = ".." then resolve (above place) rest
      else resolve (place ++ [name]) rest

/-- A name without its extension: the part from the last dot on, unless only dots stand before
it. -/
def stem (name : List Char) : List Char :=
  let root := ((name.reverse.dropWhile (· != '.')).drop 1).reverse
  if root.all (· == '.') then name else root

/-- What is written above a window that runs the program at a path: the last name of the path
without its extension. -/
def title (path : String) : String :=
  String.ofList (stem ((Text.pieces '/' path.toList).getLastD []))

end Chip8.Path
