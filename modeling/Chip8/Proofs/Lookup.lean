import Chip8.ProgramFile

/-!
Following paths. Names lead from place to place of a file tree as long as every place on the way is
a folder and the next name is there (`FileTree.Leads`), and the first name that does not get any
further decides the error (`FileTree.Stops`). A lookup comes to one of the two
(`FileTree.leads_or_blocked`), so what comes of a path can be said without it: a path holds a file,
or it misses, since it leads nowhere or not to a file, or it is barred by an error
(`FileTree.Holds`, `Misses`, `Bars`). A program is read, refused or not readable accordingly
(`ProgramFile.read_eq_ok_iff`, `read_eq_refused_iff`, `read_eq_unreadable_iff`).
-/

namespace Chip8

namespace FileTree

variable {tree : FileTree} {place next reached target early late rest : List String}
  {name path : String} {trouble : String → FileError}

/-! ### Leading on and stopping -/

/-- Where a name leads from a folder: to the folder itself, to the one above, or to what has the
name in it. -/
inductive Enters (tree : FileTree) (place : List String) (name : String) : List String → Prop where
  | stay (stays : Path.isStay name = true) : Enters tree place name place
  | up (ascends : name = "..") : Enters tree place name (Path.above place)
  | down (moves : Path.isStay name = false) (descends : name ≠ "..")
      (short : name.utf8ByteSize ≤ nameLimit) (taken : tree.entry? (place ++ [name]) ≠ none) :
      Enters tree place name (place ++ [name])

/-- Why a name leads nowhere from a place: the place is no folder, the name is longer than names can
be, or nothing there has it. -/
inductive Stops (tree : FileTree) (place : List String) (name : String) :
    (String → FileError) → Prop where
  | notFolder (outside : tree.isFolder place = false) : Stops tree place name .notFolder
  | tooLong (inside : tree.isFolder place = true) (moves : Path.isStay name = false)
      (descends : name ≠ "..") (long : nameLimit < name.utf8ByteSize) :
      Stops tree place name .nameTooLong
  | missing (inside : tree.isFolder place = true) (moves : Path.isStay name = false)
      (descends : name ≠ "..") (short : name.utf8ByteSize ≤ nameLimit)
      (free : tree.entry? (place ++ [name]) = none) : Stops tree place name .notFound

/-- Names lead from a place to another: all places that a name starts from are folders. -/
inductive Leads (tree : FileTree) : List String → List String → List String → Prop where
  | here (place : List String) : Leads tree place [] place
  | onward {place next target : List String} {name : String} {rest : List String}
      (inside : tree.isFolder place = true) (enters : tree.Enters place name next)
      (later : Leads tree next rest target) : Leads tree place (name :: rest) target

theorem walk_of_enters (inside : tree.isFolder place = true)
    (enters : tree.Enters place name next) :
    tree.walk path place (name :: rest) = tree.walk path next rest := by
  cases enters with
  | stay stays =>
      simp only [walk, inside, stays, Bool.not_true, Bool.false_eq_true, if_false, if_true]
  | up ascends =>
      have moves : Path.isStay ".." = false := by decide
      simp only [walk, inside, ascends, moves, Bool.not_true, Bool.false_eq_true, if_false, if_true]
  | down moves descends short taken =>
      have fits : ¬ nameLimit < name.utf8ByteSize := Nat.not_lt.mpr short
      have there : (tree.entry? (place ++ [name])).isSome = true :=
        Option.isSome_iff_ne_none.mpr taken
      simp only [walk, inside, moves, descends, fits, there, Bool.not_true, Bool.false_eq_true,
        if_false, if_true]

theorem walk_of_stops (stops : tree.Stops place name trouble) :
    tree.walk path place (name :: rest) = .error (trouble path) := by
  cases stops with
  | notFolder outside => simp only [walk, outside, Bool.not_false, if_true]
  | tooLong inside moves descends long =>
      simp only [walk, inside, moves, descends, long, Bool.not_true, Bool.false_eq_true, if_false,
        if_true]
  | missing inside moves descends short free =>
      have fits : ¬ nameLimit < name.utf8ByteSize := Nat.not_lt.mpr short
      simp only [walk, inside, moves, descends, fits, free, Bool.not_true, Bool.false_eq_true,
        Option.isSome_none, if_false]

/-- A name leads on from a place or it stops there. -/
theorem enters_or_stops (tree : FileTree) (place : List String) (name : String) :
    (tree.isFolder place = true ∧ ∃ next, tree.Enters place name next) ∨
      ∃ trouble, tree.Stops place name trouble := by
  cases inside : tree.isFolder place with
  | false => exact .inr ⟨_, .notFolder inside⟩
  | true =>
      cases moves : Path.isStay name with
      | true => exact .inl ⟨rfl, _, .stay moves⟩
      | false =>
          by_cases ascends : name = ".."
          · exact .inl ⟨rfl, _, .up ascends⟩
          by_cases long : nameLimit < name.utf8ByteSize
          · exact .inr ⟨_, .tooLong inside moves ascends long⟩
          have short := Nat.le_of_not_lt long
          cases free : tree.entry? (place ++ [name]) with
          | none => exact .inr ⟨_, .missing inside moves ascends short free⟩
          | some entry => exact .inl ⟨rfl, _, .down moves ascends short (by simp [free])⟩

/-- Names that lead somewhere can be followed before all else. -/
theorem Leads.walk_append (leads : tree.Leads place early reached) (path : String)
    (late : List String) : tree.walk path place (early ++ late) = tree.walk path reached late := by
  induction leads with
  | here place => rfl
  | onward inside enters later ih =>
      rw [List.cons_append, walk_of_enters inside enters, ih]

/-- Some of the names lead to a place where the next name stops. -/
def Blocked (tree : FileTree) (place names : List String) (trouble : String → FileError) : Prop :=
  ∃ early name late reached, names = early ++ name :: late ∧ tree.Leads place early reached ∧
    tree.Stops reached name trouble

theorem Leads.walk (leads : tree.Leads place early target) (path : String) :
    tree.walk path place early = .ok target := by
  have whole := leads.walk_append path []
  rwa [List.append_nil] at whole

theorem Blocked.walk {names : List String} (blocked : tree.Blocked place names trouble)
    (path : String) : tree.walk path place names = .error (trouble path) := by
  obtain ⟨early, name, late, reached, rfl, leads, stops⟩ := blocked
  rw [leads.walk_append, walk_of_stops stops]

/-- Names lead to a place or are blocked on the way. -/
theorem leads_or_blocked (tree : FileTree) (place names : List String) :
    (∃ target, tree.Leads place names target) ∨ ∃ trouble, tree.Blocked place names trouble := by
  -- A name that leads on hands the rest over to the next place.
  induction names generalizing place with
  | nil => exact .inl ⟨place, .here place⟩
  | cons name rest ih =>
      rcases tree.enters_or_stops place name with ⟨inside, next, enters⟩ | ⟨trouble, stops⟩
      · rcases ih next with
          ⟨target, leads⟩ | ⟨trouble, early, other, late, reached, rfl, leads, stops⟩
        · exact .inl ⟨target, .onward inside enters leads⟩
        · exact .inr ⟨trouble, name :: early, other, late, reached, rfl,
            .onward inside enters leads, stops⟩
      · exact .inr ⟨trouble, [], name, rest, place, rfl, .here place, stops⟩

/-! ### What comes of a path -/

/-- A path is proper: it has no null in it and is not too long. -/
def Proper (path : String) : Prop :=
  '\x00' ∉ path.toList ∧ path.utf8ByteSize ≤ pathLimit

/-- A path holds a file: its names lead to a place at which the file stands. -/
def Holds (tree : FileTree) (path : String) (contents : List Byte) : Prop :=
  Proper path ∧ path ≠ "" ∧
    ∃ place, tree.Leads (tree.start path) (Path.names path) place ∧
      tree.entry? place = some (.file contents)

/-- A path misses: it is empty, a name of it is missing, or no file stands where it leads. -/
def Misses (tree : FileTree) (path : String) : Prop :=
  Proper path ∧
    (path = "" ∨ tree.Blocked (tree.start path) (Path.names path) .notFound ∨
      ∃ place, tree.Leads (tree.start path) (Path.names path) place ∧
        ∀ contents, tree.entry? place ≠ some (.file contents))

/-- A path is barred: it has a null in it or is too long, a name of it is too long, or a name of it
stands behind what is no folder. -/
inductive Bars (tree : FileTree) (path : String) : FileError → Prop where
  | null (null : '\x00' ∈ path.toList) : Bars tree path .nullInPath
  | long (clean : '\x00' ∉ path.toList) (long : pathLimit < path.utf8ByteSize) :
      Bars tree path (.nameTooLong path)
  | longName (proper : Proper path) (given : path ≠ "")
      (blocked : tree.Blocked (tree.start path) (Path.names path) .nameTooLong) :
      Bars tree path (.nameTooLong path)
  | notFolder (proper : Proper path) (given : path ≠ "")
      (blocked : tree.Blocked (tree.start path) (Path.names path) .notFolder) :
      Bars tree path (.notFolder path)

theorem read_of_proper (tree : FileTree) (proper : Proper path) (given : path ≠ "") :
    tree.read path = (do
      let place ← tree.walk path (tree.start path) (Path.names path)
      match tree.entry? place with
      | some (.file contents) => return contents
      | some .folder => .error (.isFolder path)
      | none => .error (.notFound path)) := by
  obtain ⟨clean, short⟩ := proper
  have null : ¬ path.toList.contains '\x00' = true := by simpa using clean
  unfold read
  exact (if_neg null).trans ((if_neg (Nat.not_lt.mpr short)).trans (if_neg given))

/-- Three things can come of a path. -/
theorem holds_or_misses_or_bars (tree : FileTree) (path : String) :
    (∃ contents, tree.Holds path contents) ∨ tree.Misses path ∨ ∃ e, tree.Bars path e := by
  by_cases null : '\x00' ∈ path.toList
  · exact .inr (.inr ⟨_, .null null⟩)
  by_cases long : pathLimit < path.utf8ByteSize
  · exact .inr (.inr ⟨_, .long null long⟩)
  have proper : Proper path := ⟨null, Nat.le_of_not_lt long⟩
  by_cases empty : path = ""
  · exact .inr (.inl ⟨proper, .inl empty⟩)
  rcases tree.leads_or_blocked (tree.start path) (Path.names path) with
    ⟨place, leads⟩ | ⟨trouble, blocked⟩
  · by_cases file : ∃ contents, tree.entry? place = some (.file contents)
    · obtain ⟨contents, file⟩ := file
      exact .inl ⟨contents, proper, empty, place, leads, file⟩
    · refine .inr (.inl ⟨proper, .inr (.inr ⟨place, leads, ?_⟩)⟩)
      exact fun contents there => file ⟨contents, there⟩
  · have stops := blocked
    obtain ⟨early, name, late, reached, -, -, stops⟩ := stops
    cases stops with
    | notFolder => exact .inr (.inr ⟨_, .notFolder proper empty blocked⟩)
    | tooLong => exact .inr (.inr ⟨_, .longName proper empty blocked⟩)
    | missing => exact .inr (.inl ⟨proper, .inr (.inl blocked)⟩)

end FileTree

namespace ProgramFile

variable {tree : FileTree} {path : String} {program : List Byte} {e : FileError}

theorem read_of_holds (holds : tree.Holds path program) : read tree path = .ok program := by
  obtain ⟨proper, given, place, leads, file⟩ := holds
  simp only [read, tree.read_of_proper proper given, leads.walk path, bind, Except.bind, file]
  rfl

theorem read_of_misses (misses : tree.Misses path) :
    read tree path = .error (.refused (.missing path)) := by
  obtain ⟨proper, way⟩ := misses
  by_cases empty : path = ""
  · subst empty
    rfl
  rcases way with same | blocked | ⟨place, leads, none⟩
  · exact absurd same empty
  · simp only [read, tree.read_of_proper proper empty, blocked.walk path, bind, Except.bind]
  · simp only [read, tree.read_of_proper proper empty, leads.walk path, bind, Except.bind]
    cases there : tree.entry? place with
    | none => rfl
    | some entry =>
        cases entry with
        | folder => rfl
        | file contents => exact absurd there (none contents)

theorem read_of_bars (bars : tree.Bars path e) : read tree path = .error (.unreadable e) := by
  cases bars with
  | null null =>
      have found : path.toList.contains '\x00' = true := by simpa using null
      simp only [read, FileTree.read, found, if_true]
  | long clean long =>
      have none : path.toList.contains '\x00' = false := by simpa using clean
      simp only [read, FileTree.read, none, long, Bool.false_eq_true, if_false, if_true]
  | longName proper given blocked | notFolder proper given blocked =>
      simp only [read, tree.read_of_proper proper given, blocked.walk path, bind, Except.bind]

/-- A path is read exactly if it holds a file, and then the file is what is read. -/
theorem read_eq_ok_iff : read tree path = .ok program ↔ tree.Holds path program := by
  refine ⟨fun found => ?_, read_of_holds⟩
  rcases tree.holds_or_misses_or_bars path with ⟨contents, holds⟩ | misses | ⟨e, bars⟩
  · rw [read_of_holds holds] at found
    cases found
    exact holds
  · rw [read_of_misses misses] at found
    cases found
  · rw [read_of_bars bars] at found
    cases found

/-- A path is refused exactly if it misses, and the refusal names the path. -/
theorem read_eq_refused_iff {refusal : Refusal} :
    read tree path = .error (.refused refusal) ↔ refusal = .missing path ∧ tree.Misses path := by
  constructor
  · intro refused
    rcases tree.holds_or_misses_or_bars path with ⟨contents, holds⟩ | misses | ⟨e, bars⟩
    · rw [read_of_holds holds] at refused
      cases refused
    · rw [read_of_misses misses] at refused
      cases refused
      exact ⟨rfl, misses⟩
    · rw [read_of_bars bars] at refused
      cases refused
  · rintro ⟨rfl, misses⟩
    exact read_of_misses misses

/-- A path ends in an error exactly if it is barred by it. -/
theorem read_eq_unreadable_iff :
    read tree path = .error (.unreadable e) ↔ tree.Bars path e := by
  refine ⟨fun unreadable => ?_, read_of_bars⟩
  rcases tree.holds_or_misses_or_bars path with ⟨contents, holds⟩ | misses | ⟨e, bars⟩
  · rw [read_of_holds holds] at unreadable
    cases unreadable
  · rw [read_of_misses misses] at unreadable
    cases unreadable
  · rw [read_of_bars bars] at unreadable
    cases unreadable
    exact bars

end ProgramFile

end Chip8
