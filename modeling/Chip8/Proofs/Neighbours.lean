import Mathlib.Data.List.Rotate
import Mathlib.Data.String.Basic
import Chip8.Proofs.Lookup
import Chip8.Proofs.Readings

/-!
The neighbours of a path form one circle. Whatever stands in a folder, the path and the program
files next to it are gone through once each, in ascending order from the path on and around, and
every program file of the folder enters the same circle at its own place
(`ProgramFile.neighbours_form_circle`).

Names are put in order one by one (`ProgramFile.sortedNames_ascending`), and paths in the same
folder are ordered as their names are, so the circle of names is one of paths. A path that was
written for a place leads back to it (`Path.resolve_text`): this is why the circles of neighbours
agree.
-/

namespace Chip8

namespace Path

variable {place steps : List String} {name start : String}

/-! ### Names -/

/-- What can be the name of an entry: it is not empty, neither of the words for a place itself and
the one above it, and no slash is in it. -/
structure IsName (name : String) : Prop where
  moves : isStay name = false
  descends : name ≠ ".."
  whole : '/' ∉ name.toList

theorem IsName.nonempty (named : IsName name) : name ≠ "" := by
  rintro rfl
  cases named.moves

/-- Names are followed downwards. -/
theorem resolve_of_names (named : ∀ name ∈ steps, IsName name) :
    resolve place steps = place ++ steps := by
  induction steps generalizing place with
  | nil => rw [resolve, List.append_nil]
  | cons name rest ih =>
      have first := named name List.mem_cons_self
      rw [resolve, first.moves, if_neg Bool.false_ne_true, if_neg first.descends,
        ih fun other mem => named other (List.mem_cons_of_mem _ mem), List.append_assoc,
        List.singleton_append]

/-! ### Paths of places -/

/-- A path starts with one slash or with two. -/
theorem root_eq (path : String) : root path = "/" ∨ root path = "//" := by
  unfold root
  split
  · exact .inr rfl
  · exact .inl rfl

/-- The characters of a path behind its root: the names of its place between slashes. -/
theorem toList_text (start : String) (place : List String) :
    (text start place).toList = start.toList ++ Text.joined '/' (place.map String.toList) := by
  rw [text, String.toList_append, String.toList_ofList]

/-- The paths of a folder's entries differ in their ends alone. -/
theorem exists_text_concat (start : String) (folder : List String) :
    ∃ front : String, ∀ name, text start (folder ++ [name]) = front ++ name := by
  refine ⟨start ++ String.ofList ((folder.map String.toList).flatMap (· ++ ['/'])), fun name => ?_⟩
  rw [text, List.map_append, List.map_singleton, Text.joined_concat, String.ofList_append,
    String.ofList_toList, String.append_assoc]

theorem isAbsolute_text (slashes : start = "/" ∨ start = "//") (place : List String) :
    isAbsolute (text start place) = true := by
  unfold isAbsolute
  rw [toList_text]
  rcases slashes with rfl | rfl <;> rfl

/-- No slash stands right behind the root of a path. -/
theorem takeWhile_joined (named : ∀ name ∈ place, IsName name) :
    (Text.joined '/' (place.map String.toList)).takeWhile (· == '/') = [] := by
  cases place with
  | nil => rfl
  | cons name rest =>
      have first := named name List.mem_cons_self
      cases shape : name.toList with
      | nil => exact absurd (String.toList_eq_nil_iff.mp shape) first.nonempty
      | cons c more =>
          have other : c ≠ '/' := by
            rintro rfl
            exact first.whole (shape ▸ List.mem_cons_self)
          cases rest <;> simp [Text.joined, shape, other]

/-- A path that was written for a place has the root that it was written with. -/
theorem root_text (slashes : start = "/" ∨ start = "//") (named : ∀ name ∈ place, IsName name) :
    root (text start place) = start := by
  have behind := takeWhile_joined named
  unfold root
  rw [toList_text]
  rcases slashes with rfl | rfl
  · have one : ("/".toList ++ Text.joined '/' (place.map String.toList)).takeWhile (· == '/') =
        ['/'] := congrArg (List.cons '/') behind
    rw [one]
    rfl
  · have two : ("//".toList ++ Text.joined '/' (place.map String.toList)).takeWhile (· == '/') =
        ['/', '/'] := congrArg (fun rest => '/' :: '/' :: rest) behind
    rw [two]
    rfl

/-- A path that was written for a place leads there from the root. -/
theorem resolve_text (slashes : start = "/" ∨ start = "//") (named : ∀ name ∈ place, IsName name)
    (given : place ≠ []) : resolve [] (names (text start place)) = place := by
  have parts : Text.pieces '/' (Text.joined '/' (place.map String.toList)) =
      place.map String.toList := by
    refine Text.pieces_joined (fun part mem => ?_) (by simpa using given)
    obtain ⟨name, inside, rfl⟩ := List.mem_map.mp mem
    exact (named name inside).whole
  have same : (place.map String.toList).map String.ofList = place := by
    simp [Function.comp_def]
  have down : resolve [] place = [] ++ place := resolve_of_names named
  -- Each slash of the root is an empty name before the others, which stays at the root.
  unfold names
  rw [toList_text]
  rcases slashes with rfl | rfl
  · have cut : Text.pieces '/' ("/".toList ++ Text.joined '/' (place.map String.toList)) =
        [] :: place.map String.toList := congrArg (List.cons []) parts
    rw [cut, List.map_cons, same]
    exact down
  · have cut : Text.pieces '/' ("//".toList ++ Text.joined '/' (place.map String.toList)) =
        [] :: [] :: place.map String.toList := congrArg (fun rest => [] :: [] :: rest) parts
    rw [cut, List.map_cons, List.map_cons, same]
    exact down

end Path

namespace FileTree

variable {tree : FileTree} {place folder early late reached target : List String}
  {name path start : String}

/-! ### Sound trees -/

/-- What can be the name of an entry in a tree: it is short enough, too, and has no null in it. -/
structure IsEntryName (name : String) : Prop extends Path.IsName name where
  clean : '\x00' ∉ name.toList
  short : name.utf8ByteSize ≤ nameLimit

def Taken (tree : FileTree) (place : List String) : Prop :=
  tree.entry? place ≠ none

instance (tree : FileTree) (place : List String) : Decidable (tree.Taken place) :=
  inferInstanceAs (Decidable (_ ≠ _))

/-- A tree of files and folders as a system keeps it: what stands anywhere has a name and stands in
a folder, and relative paths start from a folder. -/
structure Sound (tree : FileTree) : Prop where
  home : tree.isFolder tree.home = true
  inside : ∀ place name, tree.Taken (place ++ [name]) → tree.isFolder place = true
  named : ∀ place name, tree.Taken (place ++ [name]) → IsEntryName name

instance (name : String) : Decidable (IsEntryName name) :=
  decidable_of_iff (Path.isStay name = false ∧ name ≠ ".." ∧ '/' ∉ name.toList ∧
      '\x00' ∉ name.toList ∧ name.utf8ByteSize ≤ nameLimit)
    ⟨fun ⟨moves, descends, whole, clean, short⟩ => ⟨⟨moves, descends, whole⟩, clean, short⟩,
      fun ⟨⟨moves, descends, whole⟩, clean, short⟩ => ⟨moves, descends, whole, clean, short⟩⟩

/-- A tree is sound if every place that is taken has a name and is in a folder. -/
theorem sound_of_entries (home : tree.isFolder tree.home = true)
    (each : ∀ taken ∈ tree.entries,
      tree.isFolder (Path.above taken.1) = true ∧ IsEntryName (Path.lastName taken.1)) :
    tree.Sound := by
  have placed : ∀ place name, tree.Taken (place ++ [name]) →
      tree.isFolder place = true ∧ IsEntryName name := by
    intro place name there
    unfold Taken entry? at there
    rw [if_neg (by simp), Ne, Option.map_eq_none_iff, ← Ne, Option.ne_none_iff_exists'] at there
    obtain ⟨taken, found⟩ := there
    have here : taken.1 = place ++ [name] := by simpa using List.find?_some found
    have fits := each taken (List.mem_of_find?_eq_some found)
    rwa [here, Path.above, List.dropLast_concat, Path.lastName, List.getLast?_concat,
      Option.getD_some] at fits
  exact ⟨home, fun place name there => (placed place name there).1,
    fun place name there => (placed place name there).2⟩

theorem taken_of_isFolder (inside : tree.isFolder place = true) : tree.Taken place := by
  intro none
  rw [isFolder, none] at inside
  cases inside

/-- All names on the way to what stands in a tree are names of entries. -/
theorem Sound.isEntryName (sound : tree.Sound) (there : tree.Taken place) :
    ∀ name ∈ place, IsEntryName name := by
  induction place using List.reverseRecOn with
  | nil => simp
  | append_singleton above last ih =>
      intro name mem
      rcases List.mem_append.mp mem with before | final
      · exact ih (taken_of_isFolder (sound.inside above last there)) name before
      · exact List.mem_singleton.mp final ▸ sound.named above last there

theorem Leads.append (first : tree.Leads place early reached)
    (second : tree.Leads reached late target) : tree.Leads place (early ++ late) target := by
  induction first with
  | here place => exact second
  | onward inside enters later ih => exact .onward inside enters (ih second)

/-- What stands in a tree can be reached from the root. -/
theorem Sound.leads (sound : tree.Sound) (there : tree.Taken place) :
    tree.Leads [] place place := by
  induction place using List.reverseRecOn with
  | nil => exact .here []
  | append_singleton above last ih =>
      have inside := sound.inside above last there
      have named := sound.named above last there
      have enters : tree.Enters above last (above ++ [last]) :=
        .down named.moves named.descends named.short there
      exact (ih (taken_of_isFolder inside)).append (.onward inside enters (.here _))

/-! ### Listing -/

/-- The names in a folder are those of all that stands in it. -/
theorem mem_namesIn_iff : name ∈ tree.namesIn folder ↔ tree.Taken (folder ++ [name]) := by
  have below : folder ++ [name] ≠ [] := by simp
  have cut : ∀ place : List String,
      (place.getLast? = some name ∧ place.dropLast = folder) ↔ place = folder ++ [name] := by
    intro place
    constructor
    · rintro ⟨last, rfl⟩
      exact (List.dropLast_append_getLast? name last).symm
    · rintro rfl
      simp
  unfold Taken entry?
  rw [if_neg below, Ne, Option.map_eq_none_iff, List.find?_eq_none, namesIn,
    List.mem_filterMap]
  simp only [not_forall, beq_iff_eq, not_not, exists_prop]
  refine exists_congr fun taken => and_congr_right fun _ => ?_
  rw [← cut taken.1]
  cases taken.1.getLast? with
  | none => simp
  | some other => simp [and_comm]

/-- A folder is listed unless its path is longer than paths can be. -/
theorem Sound.list_of_isFolder (sound : tree.Sound) (slashes : start = "/" ∨ start = "//")
    (inside : tree.isFolder folder = true)
    (short : (Path.text start folder).utf8ByteSize ≤ pathLimit) :
    tree.list start folder = .ok (tree.namesIn folder) := by
  have there := taken_of_isFolder inside
  have clean : ¬ (Path.text start folder).toList.contains '\x00' = true := by
    rw [List.contains_iff_mem, Path.toList_text, List.mem_append]
    rintro (root | behind)
    · rcases slashes with rfl | rfl <;> revert root <;> decide
    · rcases Text.mem_joined behind with slash | ⟨part, mem, null⟩
      · cases slash
      · obtain ⟨name, on, rfl⟩ := List.mem_map.mp mem
        exact (sound.isEntryName there name on).clean null
  have found := (sound.leads there).walk (Path.text start folder)
  unfold list
  refine (if_neg clean).trans ((if_neg (Nat.not_lt.mpr short)).trans ?_)
  simp only [found, bind, Except.bind, inside]
  rfl

/-- The path from the root to where a path leads. -/
def absolute (tree : FileTree) (path : String) : String :=
  Path.text (Path.root path) (tree.resolve path)

def folderOf (tree : FileTree) (path : String) : List String :=
  Path.above (tree.resolve path)

/-- The path of a name in the folder that a path leads into. -/
def beside (tree : FileTree) (path name : String) : String :=
  Path.text (Path.root path) (tree.folderOf path ++ [name])

theorem folderOf_concat (given : tree.resolve path ≠ []) :
    tree.folderOf path ++ [Path.lastName (tree.resolve path)] = tree.resolve path := by
  rw [folderOf, Path.above, Path.lastName, List.getLast?_eq_getLast_of_ne_nil given,
    Option.getD_some, List.dropLast_append_getLast given]

/-- A path is the one of its own name in its folder. -/
theorem beside_lastName (tree : FileTree) (path : String) :
    tree.beside path (Path.lastName (tree.resolve path)) = tree.absolute path := by
  by_cases atRoot : tree.resolve path = []
  · unfold beside absolute folderOf
    rw [atRoot]
    rfl
  · rw [beside, folderOf_concat atRoot, absolute]

end FileTree

namespace ProgramFile

variable {tree : FileTree} {name other front path first : String} {names circle : List String}

/-! ### Names in order -/

/-- A name that ends in `.ch8` once its letters are in lower case. Of all characters only `C` and
`H` become one of these four in lower case, so it is enough to know the case of the alphabet. -/
def NamesProgram (name : String) : Prop :=
  ".ch8".toList <:+ name.toList.map Char.toLower

instance (name : String) : Decidable (NamesProgram name) :=
  inferInstanceAs (Decidable (_ <:+ _))

theorem isProgramName_iff : isProgramName name = true ↔ NamesProgram name := by
  rw [NamesProgram, isProgramName, beq_iff_eq, ← List.map_reverse, List.take_reverse,
    List.reverse_reverse, List.map_drop, List.suffix_iff_eq_drop, List.length_map]
  exact eq_comm

theorem mem_insertName_iff : other ∈ insertName name names ↔ other = name ∨ other ∈ names := by
  induction names with
  | nil => rw [insertName, List.mem_singleton, or_iff_left List.not_mem_nil]
  | cons first rest ih =>
      rw [insertName]
      split
      · rw [List.mem_cons]
      split
      · rename_i same
        rw [← same, List.mem_cons, or_self_left]
      · rw [List.mem_cons, ih, List.mem_cons, or_left_comm]

theorem insertName_ascending (ascending : names.Pairwise (· < ·)) (name : String) :
    (insertName name names).Pairwise (· < ·) := by
  induction names with
  | nil => exact List.pairwise_singleton _ _
  | cons first rest ih =>
      obtain ⟨least, later⟩ := List.pairwise_cons.mp ascending
      rw [insertName]
      split
      · rename_i before
        refine List.pairwise_cons.mpr ⟨fun other mem => ?_, ascending⟩
        rcases List.mem_cons.mp mem with rfl | inside
        · exact before
        · exact lt_trans before (least other inside)
      split
      · exact ascending
      · rename_i notBefore different
        refine List.pairwise_cons.mpr ⟨fun other mem => ?_, ih later⟩
        rcases mem_insertName_iff.mp mem with rfl | inside
        · exact lt_of_le_of_ne (not_lt.mp notBefore) (Ne.symm different)
        · exact least other inside

theorem mem_sortedNames_iff : name ∈ sortedNames names ↔ name ∈ names := by
  induction names with
  | nil => rfl
  | cons first rest ih =>
      rw [sortedNames, List.foldr_cons, ← sortedNames, mem_insertName_iff, ih, List.mem_cons]

theorem sortedNames_ascending (names : List String) : (sortedNames names).Pairwise (· < ·) := by
  induction names with
  | nil => exact .nil
  | cons first rest ih => exact insertName_ascending ih first

/-- Names in ascending order are known by which names they are. -/
theorem sortedNames_congr {names others : List String}
    (same : ∀ name, name ∈ names ↔ name ∈ others) : sortedNames names = sortedNames others := by
  have ascending := sortedNames_ascending names
  have otherwise := sortedNames_ascending others
  have perm : (sortedNames names).Perm (sortedNames others) := by
    refine (List.perm_ext_iff_of_nodup (ascending.imp ne_of_lt) (otherwise.imp ne_of_lt)).mpr ?_
    exact fun name => by rw [mem_sortedNames_iff, mem_sortedNames_iff, same]
  exact perm.eq_of_pairwise (fun _ _ _ _ less more => absurd less (lt_asymm more)) ascending
    otherwise

/-- Texts with the same front are in the order of what is behind it. -/
theorem append_lt_append_of_lt (less : name < other) : front ++ name < front ++ other := by
  rw [String.lt_iff_toList_lt, String.toList_append, String.toList_append]
  exact List.Lex.append_left _ less _

/-- Paths in one folder are in the order of their names. -/
theorem map_beside_ascending (tree : FileTree) (path : String)
    (ascending : names.Pairwise (· < ·)) :
    (names.map (tree.beside path)).Pairwise (· < ·) := by
  obtain ⟨front, written⟩ := Path.exists_text_concat (Path.root path) (tree.folderOf path)
  refine List.pairwise_map.mpr (ascending.imp fun less => ?_)
  unfold FileTree.beside
  rw [written, written]
  exact append_lt_append_of_lt less

/-! ### Circles -/

/-- The paths of a list, gone through from one of them on and around, each of them once. -/
structure Circle (ordered : List String) (first : String) (circle : List String) : Prop where
  starts : circle.head? = some first
  nodup : circle.Nodup
  turns : circle.IsRotated ordered

theorem startingWith_isRotated (name : String) (names : List String) :
    (startingWith name names).IsRotated names := by
  have turned : (startingWith name names).IsRotated
      (names.takeWhile (· != name) ++ names.dropWhile (· != name)) := List.isRotated_append
  rwa [List.takeWhile_append_dropWhile] at turned

theorem exists_startingWith (mem : name ∈ names) :
    ∃ rest, startingWith name names = name :: rest := by
  have found : ∃ rest, names.dropWhile (· != name) = name :: rest := by
    induction names with
    | nil => cases mem
    | cons first rest ih =>
        by_cases here : first = name
        · exact ⟨rest, by simp [here]⟩
        · obtain ⟨later, shape⟩ := ih ((List.mem_cons.mp mem).resolve_left (Ne.symm here))
          exact ⟨later, by simpa [here] using shape⟩
  obtain ⟨rest, shape⟩ := found
  exact ⟨rest ++ names.takeWhile (· != name), by rw [startingWith, shape, List.cons_append]⟩

/-- The names of a circle: that of the path, and those of the program files in its folder. -/
def circleNames (tree : FileTree) (path : String) : List String :=
  sortedNames (Path.lastName (tree.resolve path) ::
    (tree.namesIn (tree.folderOf path)).filter isProgramName)

theorem mem_circleNames_iff :
    name ∈ circleNames tree path ↔ name = Path.lastName (tree.resolve path) ∨
      (tree.Taken (tree.folderOf path ++ [name]) ∧ NamesProgram name) := by
  rw [circleNames, mem_sortedNames_iff, List.mem_cons, List.mem_filter, FileTree.mem_namesIn_iff,
    isProgramName_iff]

/-- The circle of a path, as paths in ascending order. -/
def circlePaths (tree : FileTree) (path : String) : List String :=
  (circleNames tree path).map (tree.beside path)

theorem circlePaths_ascending (tree : FileTree) (path : String) :
    (circlePaths tree path).Pairwise (· < ·) :=
  map_beside_ascending tree path (sortedNames_ascending _)

theorem mem_circlePaths_iff :
    other ∈ circlePaths tree path ↔ other = tree.absolute path ∨
      ∃ name, tree.Taken (tree.folderOf path ++ [name]) ∧ NamesProgram name ∧
        other = tree.beside path name := by
  rw [circlePaths, List.mem_map, ← FileTree.beside_lastName]
  constructor
  · rintro ⟨name, mem, rfl⟩
    rcases mem_circleNames_iff.mp mem with rfl | ⟨there, program⟩
    · exact .inl rfl
    · exact .inr ⟨name, there, program, rfl⟩
  · rintro (rfl | ⟨name, there, program, rfl⟩)
    · exact ⟨_, mem_circleNames_iff.mpr (.inl rfl), rfl⟩
    · exact ⟨name, mem_circleNames_iff.mpr (.inr ⟨there, program⟩), rfl⟩

/-- The neighbours of a path whose folder is listed: its circle, entered at the path. -/
theorem exists_neighbours
    (listed : tree.list (Path.root path) (tree.folderOf path) =
      .ok (tree.namesIn (tree.folderOf path))) :
    ∃ circle, neighbours tree path = .ok circle ∧
      Circle (circlePaths tree path) (tree.absolute path) circle := by
  let own := Path.lastName (tree.resolve path)
  have result : neighbours tree path =
      .ok ((startingWith own (circleNames tree path)).map (tree.beside path)) := by
    unfold neighbours
    simp only [bind, Except.bind]
    rw [show tree.list (Path.root path) (Path.above (tree.resolve path)) = _ from listed]
    rfl
  have distinct := (circlePaths_ascending tree path).imp ne_of_lt
  have turned := (startingWith_isRotated own (circleNames tree path)).map (tree.beside path)
  obtain ⟨rest, shape⟩ := exists_startingWith (mem_circleNames_iff.mpr (.inl rfl) :
    own ∈ circleNames tree path)
  refine ⟨_, result, ?_, turned.nodup_iff.mpr distinct, turned⟩
  rw [shape, List.map_cons, List.head?_cons, FileTree.beside_lastName]

/-! ### Agreement -/

/-- A path that was written for a name in a folder leads to the name in the folder. -/
theorem leads_beside (named : ∀ part ∈ tree.folderOf path ++ [name], Path.IsName part) :
    Path.root (tree.beside path name) = Path.root path ∧
      tree.resolve (tree.beside path name) = tree.folderOf path ++ [name] := by
  have slashes := Path.root_eq path
  refine ⟨Path.root_text slashes named, ?_⟩
  unfold FileTree.resolve FileTree.start FileTree.beside
  rw [if_pos (Path.isAbsolute_text slashes _)]
  exact Path.resolve_text slashes named (by simp)

/-- A path to a program file in its folder adds nothing to the program files of the folder. -/
theorem circleNames_of_program
    (there : tree.Taken (tree.folderOf path ++ [Path.lastName (tree.resolve path)]))
    (program : NamesProgram (Path.lastName (tree.resolve path))) :
    circleNames tree path =
      sortedNames ((tree.namesIn (tree.folderOf path)).filter isProgramName) := by
  refine sortedNames_congr fun name => ?_
  rw [List.mem_cons, or_iff_right_iff_imp]
  rintro rfl
  exact List.mem_filter.mpr ⟨FileTree.mem_namesIn_iff.mpr there, isProgramName_iff.mpr program⟩

/-- Program files of one folder have the same circle, and each enters it at itself. -/
theorem exists_neighbours_beside (leads : tree.resolve other = tree.folderOf path ++ [name])
    (root : Path.root other = Path.root path)
    (listed : tree.list (Path.root path) (tree.folderOf path) =
      .ok (tree.namesIn (tree.folderOf path)))
    (own : tree.Taken (tree.folderOf path ++ [Path.lastName (tree.resolve path)]))
    (ownProgram : NamesProgram (Path.lastName (tree.resolve path)))
    (there : tree.Taken (tree.folderOf path ++ [name])) (program : NamesProgram name) :
    ∃ turned, neighbours tree other = .ok turned ∧
      Circle (circlePaths tree path) (tree.beside path name) turned := by
  have folder : tree.folderOf other = tree.folderOf path := by
    rw [FileTree.folderOf, leads, Path.above, List.dropLast_concat]
  have last : Path.lastName (tree.resolve other) = name := by
    rw [leads, Path.lastName, List.getLast?_concat, Option.getD_some]
  have paths : tree.beside other = tree.beside path := by
    funext name
    rw [FileTree.beside, folder, root, ← FileTree.beside]
  have names : circleNames tree other = circleNames tree path := by
    rw [circleNames_of_program own ownProgram,
      circleNames_of_program (by rwa [last, folder]) (by rwa [last]), folder]
  have entry : tree.absolute other = tree.beside path name := by
    rw [FileTree.absolute, root, leads, ← FileTree.beside]
  obtain ⟨turned, result, turns⟩ := exists_neighbours (root ▸ folder ▸ listed)
  refine ⟨turned, result, ?_⟩
  rwa [circlePaths, names, paths, ← circlePaths, entry] at turns

/-- What the neighbours of a path are, whatever stands in its folder, as long as the folder's path
is no longer than paths can be: the path itself and the program files of the folder, each of them
once, in a circle. There is one ascending list of them, and the neighbours are this list turned
around to begin with the path. If the path is itself one of the program files, the neighbours of all
others are the same list, turned around to begin with the other. -/
theorem neighbours_form_circle (sound : tree.Sound)
    (inside : tree.isFolder (tree.folderOf path) = true)
    (short : (Path.text (Path.root path) (tree.folderOf path)).utf8ByteSize ≤
      FileTree.pathLimit) :
    ∃ ordered circle : List String,
      ordered.Pairwise (· < ·) ∧
      (∀ other, other ∈ ordered ↔ other = tree.absolute path ∨
        ∃ name, tree.Taken (tree.folderOf path ++ [name]) ∧ NamesProgram name ∧
          other = tree.beside path name) ∧
      neighbours tree path = .ok circle ∧ Circle ordered (tree.absolute path) circle ∧
      (NamesProgram (Path.lastName (tree.resolve path)) →
        tree.Taken (tree.resolve path) →
        ∀ other ∈ circle, ∃ turned,
          neighbours tree other = .ok turned ∧ Circle ordered other turned) := by
  have listed := sound.list_of_isFolder (Path.root_eq path) inside short
  obtain ⟨circle, result, turns⟩ := exists_neighbours listed
  refine ⟨circlePaths tree path, circle, circlePaths_ascending tree path,
    fun _ => mem_circlePaths_iff, result, turns, fun ownProgram own other mem => ?_⟩
  have given : tree.resolve path ≠ [] := by
    intro atRoot
    rw [atRoot] at ownProgram
    exact absurd ownProgram (by decide)
  rw [← FileTree.folderOf_concat given] at own
  -- Every path of the circle is one of a program file that stands in the folder.
  obtain ⟨name, there, program, rfl⟩ : ∃ name,
      tree.Taken (tree.folderOf path ++ [name]) ∧ NamesProgram name ∧
        other = tree.beside path name := by
    rcases mem_circlePaths_iff.mp (turns.turns.mem_iff.mp mem) with rfl | beside
    · exact ⟨_, own, ownProgram, (tree.beside_lastName path).symm⟩
    · exact beside
  obtain ⟨root, leads⟩ := leads_beside fun part on => (sound.isEntryName there part on).toIsName
  exact exists_neighbours_beside leads root listed own ownProgram there program

def cabinet : FileTree :=
  ⟨["games"], [(["games"], .folder), (["games", "tron.ch8"], .file []),
    (["games", "notes.txt"], .file []), (["games", "PONG.CH8"], .file []),
    (["games", "maze.ch8"], .folder)]⟩

theorem cabinet_goes_around :
    cabinet.Sound ∧ cabinet.isFolder (cabinet.folderOf "./tron.ch8") = true ∧
      (Path.text (Path.root "./tron.ch8") (cabinet.folderOf "./tron.ch8")).utf8ByteSize ≤
        FileTree.pathLimit ∧
      NamesProgram (Path.lastName (cabinet.resolve "./tron.ch8")) ∧
      cabinet.Taken (cabinet.resolve "./tron.ch8") ∧
      ∃ ordered,
        Circle ordered "/games/tron.ch8"
          ["/games/tron.ch8", "/games/PONG.CH8", "/games/maze.ch8"] ∧
        Circle ordered "/games/maze.ch8"
          ["/games/maze.ch8", "/games/tron.ch8", "/games/PONG.CH8"] := by
  have sound : cabinet.Sound := FileTree.sound_of_entries (by decide) (by decide)
  have inside : cabinet.isFolder (cabinet.folderOf "./tron.ch8") = true := by decide
  have short : (Path.text (Path.root "./tron.ch8") (cabinet.folderOf "./tron.ch8")).utf8ByteSize ≤
      FileTree.pathLimit := by decide
  have program : NamesProgram (Path.lastName (cabinet.resolve "./tron.ch8")) := by decide
  have own : cabinet.Taken (cabinet.resolve "./tron.ch8") := by decide
  have first : neighbours cabinet "./tron.ch8" =
      .ok ["/games/tron.ch8", "/games/PONG.CH8", "/games/maze.ch8"] := by rfl
  have second : neighbours cabinet "/games/maze.ch8" =
      .ok ["/games/maze.ch8", "/games/tron.ch8", "/games/PONG.CH8"] := by rfl
  obtain ⟨ordered, circle, -, -, result, turns, others⟩ :=
    neighbours_form_circle sound inside short
  cases first.symm.trans result
  obtain ⟨turned, result, turnsToo⟩ := others program own "/games/maze.ch8" (by decide)
  cases second.symm.trans result
  exact ⟨sound, inside, short, program, own, ordered, turns, turnsToo⟩

end ProgramFile

end Chip8
