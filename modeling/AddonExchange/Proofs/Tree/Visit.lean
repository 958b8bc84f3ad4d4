import AddonExchange.Admission.Findings
import AddonExchange.Proofs.Tree.Entry
import AddonExchange.Proofs.Tree.Walk
import Mathlib.Data.List.Flatten
import Mathlib.Data.List.Perm.Basic

namespace AddonExchange

/-- The path text of the directory that names lead to: each of them followed by a slash. -/
def Text.dirPath (names : List Text) : Text := names.flatMap fun name => name ++ ofString "/"

theorem inside_dirPath (names : List Text) (name : Text) :
    Findings.inside (Text.dirPath names) name = Text.dirPath (names ++ [name]) := by
  rw [Findings.inside, Text.dirPath, Text.dirPath, List.flatMap_append, List.flatMap_singleton,
    List.append_assoc]

/-- An entry with the names that lead to its directory. -/
abbrev LocatedEntry := List Text × Entry

/-- The path text of an entry: that of its directory and then its own name. -/
def LocatedEntry.path (located : LocatedEntry) : Text :=
  Text.dirPath located.1 ++ located.2.name

/-- An entry when a visit meets it, with the entries of the same directory that were met before. -/
structure Meeting where
  names : List Text
  earlier : List Entry
  entry : Entry

def Meeting.located (meeting : Meeting) : LocatedEntry := (meeting.names, meeting.entry)

namespace Dir

variable {names : List Text} {earlier : List Entry}

/-- Meets entries of a directory one after the other. -/
def meet (names : List Text) (earlier : List Entry) : List Entry → List Meeting
  | [] => []
  | entry :: rest => ⟨names, earlier, entry⟩ :: meet names (earlier ++ [entry]) rest

def fileEntries (files : List File) : List Entry := (files.map File.name).map .file

def dirEntries (dirs : List Dir) : List Entry := (dirs.map Dir.name).map .dir

mutual

/-- Visits the directory that names lead to. -/
def visitFrom (names : List Text) : Dir → List Meeting
  | ⟨_, files, dirs⟩ =>
    meet names [] (fileEntries files) ++ visitAll names (fileEntries files) dirs

/-- Meets subdirectories, each followed by a visit of it. -/
def visitAll (names : List Text) (earlier : List Entry) : List Dir → List Meeting
  | [] => []
  | dir :: rest =>
    ⟨names, earlier, .dir dir.name⟩ :: visitFrom (names ++ [dir.name]) dir ++
      visitAll names (earlier ++ [.dir dir.name]) rest

end

/-- Visits a tree. The root itself is not met. -/
def visit (tree : Dir) : List Meeting := visitFrom [] tree

/-- The entries of a tree, one directory after the other. -/
def locatedEntries (tree : Dir) : List LocatedEntry :=
  tree.located.flatMap fun place => place.2.entries.map fun entry => (place.1, entry)

private theorem meet_append (names : List Text) (earlier first second : List Entry) :
    meet names earlier (first ++ second) =
      meet names earlier first ++ meet names (earlier ++ first) second := by
  induction first generalizing earlier with
  | nil => rw [List.append_nil]; rfl
  | cons entry rest ih =>
    rw [List.cons_append, meet, meet, ih, List.append_assoc, List.singleton_append]
    rfl

theorem map_located_meet (names : List Text) (earlier entries : List Entry) :
    (meet names earlier entries).map Meeting.located =
      entries.map fun entry => (names, entry) := by
  induction entries generalizing earlier with
  | nil => rfl
  | cons entry rest ih =>
    rw [meet, List.map_cons, ih]
    rfl

/-- Subdirectories are met as if nothing came between them, and all of them are visited. -/
theorem visitAll_perm (names : List Text) (earlier : List Entry) (dirs : List Dir) :
    (visitAll names earlier dirs).Perm
      (meet names earlier (dirEntries dirs) ++
        dirs.flatMap fun dir => visitFrom (names ++ [dir.name]) dir) := by
  induction dirs generalizing earlier with
  | nil => exact .nil
  | cons dir rest ih =>
    rw [visitAll, List.flatMap_cons]
    refine List.Perm.cons _ (((ih _).append_left _).trans ?_)
    exact List.perm_append_comm_assoc _ _ _

/-- A visit meets the entries of each directory in their order, though not in one go. -/
theorem visitFrom_perm (names : List Text) (tree : Dir) :
    (visitFrom names tree).Perm
      (tree.located.flatMap fun place => meet (names ++ place.1) [] place.2.entries) := by
  induction tree generalizing names with
  | node own files dirs ih =>
    have below (child : Dir) :
        ((child.located.map (Place.below child.name)).flatMap fun place =>
            meet (names ++ place.1) [] place.2.entries) =
          child.located.flatMap fun place =>
            meet ((names ++ [child.name]) ++ place.1) [] place.2.entries := by
      rw [List.flatMap_map]
      simp only [Place.below, List.append_assoc, List.singleton_append]
    have visited : (dirs.flatMap fun child => visitFrom (names ++ [child.name]) child).Perm
        (dirs.flatMap fun child => child.located.flatMap fun place =>
          meet ((names ++ [child.name]) ++ place.1) [] place.2.entries) :=
      List.Perm.flatMap_left dirs fun child member => ih child member _
    rw [located_eq, List.flatMap_cons, List.flatMap_assoc, List.append_nil]
    simp only [below]
    rw [visitFrom, entries, meet_append, List.append_assoc]
    exact ((visitAll_perm names _ dirs).trans (visited.append_left _)).append_left _

theorem visit_perm (tree : Dir) :
    tree.visit.Perm (tree.located.flatMap fun place => meet place.1 [] place.2.entries) :=
  visitFrom_perm [] tree

theorem map_located_visit_perm (tree : Dir) :
    (tree.visit.map Meeting.located).Perm tree.locatedEntries := by
  have met := tree.visit_perm.map Meeting.located
  simp only [List.map_flatMap, map_located_meet] at met
  exact met

end Dir

end AddonExchange
