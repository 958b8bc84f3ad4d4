import AddonExchange.Tree.Basic

/-! The copy of a tree. The copy of a directory is put in its place first, without subdirectories,
and is filled there when its turn comes. -/

namespace AddonExchange

namespace Dir

/-- A directory with its files but without its subdirectories. -/
def bare (dir : Dir) : Dir := { dir with dirs := [] }

/-- Adds copies of subdirectories at the end, for the time being without what is below them. -/
def addBare (dir : Dir) (children : List Dir) : Dir :=
  { dir with dirs := dir.dirs ++ children.map bare }

/-- The directory that a route reaches. Each step of a route is the position of a
subdirectory. -/
def along? (dir : Dir) : List Nat → Option Dir
  | [] => some dir
  | position :: rest => dir.dirs[position]?.bind (·.along? rest)

/-- Changes the directory that a route reaches, if there is one. -/
def changeAlong (dir : Dir) (change : Dir → Dir) : List Nat → Dir
  | [] => change dir
  | position :: rest =>
    { dir with dirs := dir.dirs.modify position fun child => child.changeAlong change rest }

end Dir

/-- A directory whose subdirectories are still to be copied, with the route to its own copy. -/
structure CopyTask where
  source : Dir
  route : List Nat

namespace CopyTask

/-- The tasks for subdirectories whose copies come after a number of others. The last one is done
first. -/
def below (route : List Nat) (held : Nat) (dirs : List Dir) : List CopyTask :=
  ((dirs.zipIdx held).map fun placed => ⟨placed.1, route ++ [placed.2]⟩).reverse

end CopyTask

namespace Dir

theorem sizeAll_source_below (route : List Nat) (held : Nat) (dirs : List Dir) :
    sizeAll ((CopyTask.below route held dirs).map CopyTask.source) = sizeAll dirs := by
  rw [CopyTask.below, List.map_reverse, sizeAll_reverse, List.map_map]
  exact congrArg sizeAll (List.zipIdx_map_fst held dirs)

/-- Does what is left of a copy. The copies of subdirectories go behind what their directory
holds. -/
def copyFrom (copied : Dir) : List CopyTask → Dir
  | [] => copied
  | ⟨source, route⟩ :: waiting =>
    let held := (copied.along? route).elim 0 (·.dirs.length)
    copyFrom (copied.changeAlong (·.addBare source.dirs) route)
      (CopyTask.below route held source.dirs ++ waiting)
termination_by waiting => sizeAll (waiting.map CopyTask.source)
decreasing_by
  simp only [List.map_append, sizeAll_append, sizeAll_source_below, List.map_cons, sizeAll,
    size_eq]
  omega

/-- A copy of a tree, directory by directory. -/
def copy (dir : Dir) : Dir := copyFrom dir.bare [⟨dir, []⟩]

end Dir

end AddonExchange
