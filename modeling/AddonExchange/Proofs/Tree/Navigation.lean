import AddonExchange.Tree.Basic

/-! Directories by their paths. A path names one directory after the other from below the
root; where names repeat it is the path of several directories, of which descending finds
the first. -/

namespace AddonExchange.Dir

/-- What holds of a directory as soon as it holds of its subdirectories holds of every tree. -/
@[elab_as_elim, induction_eliminator]
theorem induction {motive : Dir → Prop}
    (node : ∀ name files dirs, (∀ child ∈ dirs, motive child) → motive ⟨name, files, dirs⟩)
    (dir : Dir) : motive dir :=
  match dir with
  | ⟨name, files, dirs⟩ => node name files dirs fun child _ => induction node child

/-- A directory of a tree together with a path that names it, whichever of several directories
of one name the path goes through. -/
inductive At : Dir → List Text → Dir → Prop where
  | here {dir : Dir} : At dir [] dir
  | through {dir child target : Dir} {path : List Text} (member : child ∈ dir.dirs)
      (rest : At child path target) : At dir (child.name :: path) target

mutual

/-- Whether a property holds of every directory of a tree, its root included. -/
def Everywhere (property : Dir → Prop) : Dir → Prop
  | ⟨name, files, dirs⟩ => property ⟨name, files, dirs⟩ ∧ AllEverywhere property dirs

def AllEverywhere (property : Dir → Prop) : List Dir → Prop
  | [] => True
  | dir :: rest => dir.Everywhere property ∧ AllEverywhere property rest

end

section Everywhere

variable {property : Dir → Prop}

mutual

/-- A property that is decided for single directories is decided for whole trees. -/
def decideEverywhere [DecidablePred property] : (dir : Dir) → Decidable (dir.Everywhere property)
  | ⟨name, files, dirs⟩ =>
    have := decideAllEverywhere dirs
    inferInstanceAs (Decidable (property ⟨name, files, dirs⟩ ∧ AllEverywhere property dirs))

def decideAllEverywhere [DecidablePred property] :
    (dirs : List Dir) → Decidable (AllEverywhere property dirs)
  | [] => inferInstanceAs (Decidable True)
  | dir :: rest =>
    have := decideEverywhere dir
    have := decideAllEverywhere rest
    inferInstanceAs (Decidable (dir.Everywhere property ∧ AllEverywhere property rest))

end

instance [DecidablePred property] (dir : Dir) : Decidable (dir.Everywhere property) :=
  decideEverywhere dir

theorem allEverywhere_iff (dirs : List Dir) :
    AllEverywhere property dirs ↔ ∀ dir ∈ dirs, dir.Everywhere property := by
  induction dirs with
  | nil => simp [AllEverywhere]
  | cons dir rest ih => simp [AllEverywhere, ih]

theorem everywhere_iff (dir : Dir) :
    dir.Everywhere property ↔
      property dir ∧ ∀ child ∈ dir.dirs, child.Everywhere property := by
  cases dir
  rw [Everywhere, allEverywhere_iff]

theorem Everywhere.root {dir : Dir} (everywhere : dir.Everywhere property) : property dir :=
  ((everywhere_iff dir).mp everywhere).1

theorem Everywhere.child {dir child : Dir} (everywhere : dir.Everywhere property)
    (member : child ∈ dir.dirs) : child.Everywhere property :=
  ((everywhere_iff dir).mp everywhere).2 child member

theorem Everywhere.at {dir target : Dir} {path : List Text}
    (everywhere : dir.Everywhere property) (reached : dir.At path target) : property target := by
  induction reached with
  | here => exact everywhere.root
  | through member _ ih => exact ih (everywhere.child member)

theorem Everywhere.mono {dir : Dir} {weaker : Dir → Prop} (everywhere : dir.Everywhere property)
    (implies : ∀ dir, property dir → weaker dir) : dir.Everywhere weaker := by
  induction dir with
  | node name files dirs ih =>
    rw [everywhere_iff]
    refine ⟨implies _ everywhere.root, ?_⟩
    intro child member
    exact ih child member (everywhere.child member)

end Everywhere

section Lookup

variable {dir child : Dir} {file : File} {name : Text}

theorem exists_name_of_isEmpty (empty : dir.isEmpty = true) : ∃ name, dir = ⟨name, [], []⟩ := by
  obtain ⟨name, files, dirs⟩ := dir
  obtain ⟨noFiles, noDirs⟩ := Bool.and_eq_true_iff.mp empty
  obtain rfl := List.isEmpty_iff.mp noFiles
  obtain rfl := List.isEmpty_iff.mp noDirs
  exact ⟨name, rfl⟩

theorem findDir?_mem (found : dir.findDir? name = some child) : child ∈ dir.dirs :=
  List.mem_of_find?_eq_some found

theorem findDir?_name (found : dir.findDir? name = some child) : child.name = name := by
  simpa using List.find?_some found

theorem findFile?_mem (found : dir.findFile? name = some file) : file ∈ dir.files :=
  List.mem_of_find?_eq_some found

theorem findFile?_name (found : dir.findFile? name = some file) : file.name = name := by
  simpa using List.find?_some found

theorem lookup?_cons (dir : Dir) (first : Text) (rest : List Text) (name : Text) :
    dir.lookup? (first :: rest) name =
      (dir.findDir? first).bind fun child => child.lookup? rest name := by
  simp [lookup?, descend?, Option.bind_assoc]

theorem at_of_descend? {path : List Text} {target : Dir}
    (found : dir.descend? path = some target) : dir.At path target := by
  induction path generalizing dir with
  | nil =>
    cases found
    exact .here
  | cons first rest ih =>
    obtain ⟨child, foundChild, foundRest⟩ := Option.bind_eq_some_iff.mp found
    rw [← findDir?_name foundChild]
    exact .through (findDir?_mem foundChild) (ih foundRest)

theorem at_of_lookup? {path : List Text} (found : dir.lookup? path name = some file) :
    ∃ holder, dir.At path holder ∧ file ∈ holder.files ∧ file.name = name := by
  obtain ⟨holder, reached, held⟩ := Option.bind_eq_some_iff.mp found
  exact ⟨holder, at_of_descend? reached, findFile?_mem held, findFile?_name held⟩

end Lookup

end AddonExchange.Dir
