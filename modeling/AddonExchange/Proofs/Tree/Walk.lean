import AddonExchange.Proofs.Text.Path
import AddonExchange.Proofs.Tree.Navigation

namespace AddonExchange

/-- A file with the names of the directories that lead to it. -/
abbrev LocatedFile := List Text × File

namespace LocatedFile

/-- The path under which a walk lists a file. -/
def path (located : LocatedFile) : Text := Text.joinNames (located.1 ++ [located.2.name])

/-- A file seen from the directory above the one whose name is given. -/
def below (name : Text) (located : LocatedFile) : LocatedFile := (name :: located.1, located.2)

end LocatedFile

namespace Dir

/-- A directory with the names that lead to it. -/
abbrev Place := List Text × Dir

/-- A place seen from the directory above the one whose name is given. -/
def Place.below (name : Text) (place : Place) : Place := (name :: place.1, place.2)

mutual

/-- The directories of a tree, each before those below it, with the names that lead to them. -/
def located : Dir → List Place
  | ⟨name, files, dirs⟩ => ([], ⟨name, files, dirs⟩) :: locatedAll dirs

/-- The directories of several trees, seen from the directory that has them. -/
def locatedAll : List Dir → List Place
  | [] => []
  | dir :: rest => dir.located.map (Place.below dir.name) ++ locatedAll rest

end

section Located

variable {tree target : Dir} {names : List Text}

private theorem locatedAll_eq (dirs : List Dir) :
    locatedAll dirs = dirs.flatMap fun dir => dir.located.map (Place.below dir.name) := by
  induction dirs with
  | nil => rfl
  | cons dir rest ih => rw [locatedAll, ih, List.flatMap_cons]

theorem located_eq (tree : Dir) :
    tree.located =
      ([], tree) :: tree.dirs.flatMap fun dir => dir.located.map (Place.below dir.name) := by
  cases tree
  rw [located, locatedAll_eq]

theorem mem_located_iff : (names, target) ∈ tree.located ↔ tree.At names target := by
  induction tree generalizing names with
  | node own files dirs ih =>
    rw [located_eq, List.mem_cons, List.mem_flatMap]
    constructor
    · rintro (root | ⟨child, member, below⟩)
      · cases root
        exact .here
      · obtain ⟨⟨rest, found⟩, listed, same⟩ := List.mem_map.mp below
        cases same
        exact .through member ((ih child member).mp listed)
    · intro reached
      cases reached with
      | here => exact Or.inl rfl
      | through member rest =>
        exact Or.inr ⟨_, member, List.mem_map.mpr ⟨_, (ih _ member).mpr rest, rfl⟩⟩

/-- Names that directories have in them, each behind the names that lead to its directory. -/
def addressed (listed : Dir → List Text) (tree : Dir) : List (List Text) :=
  tree.located.flatMap fun place => (listed place.2).map fun name => place.1 ++ [name]

theorem mem_addressed_iff {listed : Dir → List Text} {address : List Text} :
    address ∈ tree.addressed listed ↔
      ∃ names holder name, tree.At names holder ∧ name ∈ listed holder ∧
        names ++ [name] = address := by
  rw [addressed, List.mem_flatMap]
  constructor
  · intro member
    obtain ⟨⟨names, holder⟩, located, here⟩ := member
    obtain ⟨name, held, same⟩ := List.mem_map.mp here
    exact ⟨names, holder, name, mem_located_iff.mp located, held, same⟩
  · intro there
    obtain ⟨names, holder, name, reached, held, same⟩ := there
    exact ⟨(names, holder), mem_located_iff.mpr reached, List.mem_map.mpr ⟨name, held, same⟩⟩

theorem addressed_eq (listed : Dir → List Text) (tree : Dir) :
    tree.addressed listed =
      (listed tree).map (fun name => [name]) ++
        tree.dirs.flatMap fun dir => (dir.addressed listed).map (dir.name :: ·) := by
  rw [addressed, located_eq, List.flatMap_cons, List.flatMap_assoc]
  simp only [addressed, List.map_flatMap, List.flatMap_map, List.map_map]
  rfl

end Located

section Walk

variable {tree : Dir}

/-- The files of a directory with their paths, for a path that leads to the root of the place. -/
def filesFrom (path : Text) (place : Place) : List (Text × File) :=
  place.2.files.map fun file => ((place.1 ++ [file.name]).foldl Text.joinPath path, file)

private theorem filesFrom_below (path name : Text) (place : Place) :
    filesFrom path (place.below name) = filesFrom (path.joinPath name) place :=
  rfl

/-- The files below a path are those of the directory it leads to and those below its
subdirectories. -/
theorem flatMap_filesFrom (path : Text) (dir : Dir) :
    dir.located.flatMap (filesFrom path) =
      dir.files.map (fun file => (path.joinPath file.name, file)) ++
        (placed path dir.dirs).flatMap fun waits =>
          waits.2.located.flatMap (filesFrom waits.1) := by
  rw [located_eq, List.flatMap_cons, List.flatMap_assoc, placed, List.flatMap_map]
  simp only [List.flatMap_map, filesFrom_below]
  rfl

/-- Visiting what waits gives the files of each directory that waits and of those below it. -/
theorem walkFrom_eq (waiting : List (Text × Dir)) :
    walkFrom waiting =
      waiting.flatMap fun waits => waits.2.located.flatMap (filesFrom waits.1) := by
  induction waiting using walkFrom.induct with
  | case1 => rw [walkFrom, List.flatMap_nil]
  | case2 path dir waiting =>
    rename_i ih
    rw [walkFrom, ih, List.flatMap_append, List.flatMap_cons, flatMap_filesFrom,
      List.append_assoc]

/-- A walk gives the files in the order of their directories, each under its names joined. -/
theorem walk_eq (tree : Dir) :
    tree.walk = tree.located.flatMap fun place =>
      place.2.files.map fun file => (Text.joinNames (place.1 ++ [file.name]), file) := by
  rw [walk, walkFrom_eq, List.flatMap_singleton]
  rfl

theorem mem_walk_iff {path : Text} {file : File} :
    (path, file) ∈ tree.walk ↔
      ∃ names holder, tree.At names holder ∧ file ∈ holder.files ∧
        Text.joinNames (names ++ [file.name]) = path := by
  rw [walk_eq, List.mem_flatMap]
  constructor
  · intro walked
    obtain ⟨⟨names, holder⟩, listed, here⟩ := walked
    obtain ⟨_, held, same⟩ := List.mem_map.mp here
    cases same
    exact ⟨names, holder, mem_located_iff.mp listed, held, rfl⟩
  · intro there
    obtain ⟨names, holder, reached, held, joined⟩ := there
    subst joined
    exact ⟨(names, holder), mem_located_iff.mpr reached, List.mem_map.mpr ⟨file, held, rfl⟩⟩

end Walk

section LocatedFiles

/-- The files of a tree in the order of the walk, each with the names that lead to it. -/
def locatedFiles (tree : Dir) : List LocatedFile :=
  tree.located.flatMap fun place => place.2.files.map fun file => (place.1, file)

theorem locatedFiles_eq (tree : Dir) :
    tree.locatedFiles =
      tree.files.map (fun file => ([], file)) ++
        tree.dirs.flatMap fun child => child.locatedFiles.map (LocatedFile.below child.name) := by
  rw [locatedFiles, located_eq, List.flatMap_cons, List.flatMap_assoc]
  simp only [locatedFiles, List.map_flatMap, List.flatMap_map, List.map_map]
  rfl

theorem walk_eq_locatedFiles (tree : Dir) :
    tree.walk = tree.locatedFiles.map fun located => (located.path, located.2) := by
  rw [walk_eq, locatedFiles, List.map_flatMap]
  simp only [List.map_map]
  rfl

theorem mem_locatedFiles_iff {tree : Dir} {names : List Text} {file : File} :
    (names, file) ∈ tree.locatedFiles ↔ ∃ holder, tree.At names holder ∧ file ∈ holder.files := by
  rw [locatedFiles, List.mem_flatMap]
  constructor
  · intro listed
    obtain ⟨⟨names, holder⟩, located, here⟩ := listed
    obtain ⟨_, held, same⟩ := List.mem_map.mp here
    cases same
    exact ⟨holder, mem_located_iff.mp located, held⟩
  · intro there
    obtain ⟨holder, reached, held⟩ := there
    exact ⟨(names, holder), mem_located_iff.mpr reached, List.mem_map.mpr ⟨file, held, rfl⟩⟩

end LocatedFiles

end Dir

end AddonExchange
