import AddonExchange.Sync.Difference
import AddonExchange.Tree.Copy
import AddonExchange.Tree.Writer

namespace AddonExchange

/-- Files to remove, by their names alone, and files to add. -/
structure UpdatePack where
  removals : Dir
  additions : Dir

namespace UpdatePack

/-- The pack that turns the first tree into the second. A file that changed is in both lists. -/
def between (source target : Dir) : UpdatePack :=
  ⟨target.difference false source, source.difference true target⟩

def isEmpty (pack : UpdatePack) : Bool := pack.removals.isEmpty && pack.additions.isEmpty

def toValue (escaped : Bool) (pack : UpdatePack) : Value :=
  .map [(Text.ofString "removelist", pack.removals.toValue escaped),
    (Text.ofString "addlist", pack.additions.toValue escaped)]

end UpdatePack

/-- A list of changes to a directory, with the names that lead to the directory. -/
structure PackTask where
  list : Dir
  path : List Text

/-- The tasks for the subdirectories that lists are for. The last one is done first. -/
def PackTask.below (path : List Text) (lists : List Dir) : List PackTask :=
  (lists.map fun list => ⟨list, path ++ [list.name]⟩).reverse

namespace Dir

/-- Removes the first file of a name. -/
def removeFile (files : List File) (name : Text) : List File := files.eraseP (·.name == name)

/-- Puts a file in place of the first one of its name, or at the end if there is none. -/
def putFile (files : List File) (file : File) : List File :=
  match files with
  | [] => [file]
  | held :: rest => if held.name = file.name then file :: rest else held :: putFile rest file

/-- Adds an empty directory of a name at the end unless there is one of that name. -/
def ensureDir (dirs : List Dir) (name : Text) : List Dir :=
  if dirs.any (·.name == name) then dirs else dirs ++ [⟨name, [], []⟩]

/-- Removes the files that a list names. Directories stay, even when they are emptied. -/
def dropFiles (list dir : Dir) : Dir :=
  { dir with files := (list.files.map File.name).foldl removeFile dir.files }

/-- Adds the files of a list, and the directories that it has lists for, in their order. -/
def putFiles (list dir : Dir) : Dir :=
  ⟨dir.name, list.files.foldl putFile dir.files, (list.dirs.map Dir.name).foldl ensureDir dir.dirs⟩

/-- Those of several lists that are for a subdirectory of the directory that a path reaches. -/
def matched (dir : Dir) (path : List Text) (lists : List Dir) : List Dir :=
  (dir.descend? path).elim [] fun found =>
    lists.filter fun list => (found.findDir? list.name).isSome

private theorem sizeAll_filter_le (keeps : Dir → Bool) (dirs : List Dir) :
    sizeAll (dirs.filter keeps) ≤ sizeAll dirs := by
  induction dirs with
  | nil => exact Nat.le_refl _
  | cons dir rest ih =>
    rw [List.filter_cons]
    split
    · exact Nat.add_le_add_left ih _
    · exact Nat.le_trans ih (Nat.le_add_left _ _)

private theorem sizeAll_list_below_matched_le (dir : Dir) (path : List Text) (lists : List Dir) :
    sizeAll ((PackTask.below path (dir.matched path lists)).map PackTask.list) ≤ sizeAll lists := by
  rw [PackTask.below, List.map_reverse, sizeAll_reverse, List.map_map,
    show PackTask.list ∘ (fun list => ⟨list, path ++ [list.name]⟩) = id from rfl, List.map_id,
    matched]
  cases dir.descend? path with
  | none => exact Nat.zero_le _
  | some found => exact sizeAll_filter_le _ lists

/-- Does the tasks that wait: each changes its directory by its list, and then come the lists for
subdirectories that the directory now has. -/
def followFrom (change : (list dir : Dir) → Dir) (dir : Dir) : List PackTask → Dir
  | [] => dir
  | ⟨list, path⟩ :: waiting =>
    let changed := dir.changeAt (change list) path
    followFrom change changed
      (PackTask.below path (changed.matched path list.dirs) ++ waiting)
termination_by waiting => sizeAll (waiting.map PackTask.list)
decreasing_by
  have fewer := sizeAll_list_below_matched_le (dir.changeAt (change list) path) path list.dirs
  simp only [List.map_append, sizeAll_append, List.map_cons, sizeAll, size_eq]
  omega

/-- Removes the files that a removal list names in a tree. -/
def remove (dir removals : Dir) : Dir := followFrom dropFiles dir [⟨removals, []⟩]

/-- Adds the files of an addition list to a tree. Where lists repeat a name the earlier one has the
last word. -/
def add (dir additions : Dir) : Dir := followFrom putFiles dir [⟨additions, []⟩]

/-- Applies a pack to a copy: what is to be removed goes first, so a file that changed is
replaced. -/
def apply (dir : Dir) (pack : UpdatePack) : Dir :=
  (dir.copy.remove pack.removals).add pack.additions

end Dir

end AddonExchange
