import AddonExchange.Tree.Basic

namespace AddonExchange

/-- A name below a path; the empty path is dropped. -/
def Text.joinPath (path name : Text) : Text :=
  if path.isEmpty then name else path ++ ofString "/" ++ name

namespace Dir

/-- Subdirectories with their paths. -/
def placed (path : Text) (dirs : List Dir) : List (Text × Dir) :=
  dirs.map fun dir => (path.joinPath dir.name, dir)

private theorem map_snd_placed (path : Text) (dirs : List Dir) :
    (placed path dirs).map (·.2) = dirs := by
  simp [placed, Function.comp_def]

/-- The files below directories that wait to be visited, each with its path. A visited
directory puts its subdirectories in front of those that still wait. -/
def walkFrom : List (Text × Dir) → List (Text × File)
  | [] => []
  | (path, dir) :: waiting =>
    dir.files.map (fun file => (path.joinPath file.name, file)) ++
      walkFrom (placed path dir.dirs ++ waiting)
termination_by waiting => sizeAll (waiting.map (·.2))
decreasing_by
  simp only [List.map_append, sizeAll_append, map_snd_placed, List.map_cons, sizeAll, size_eq]
  omega

/-- Every file of a tree with its path below the root. -/
def walk (dir : Dir) : List (Text × File) := walkFrom [([], dir)]

end Dir

end AddonExchange
