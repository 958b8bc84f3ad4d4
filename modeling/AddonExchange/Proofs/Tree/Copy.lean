import AddonExchange.Tree.Copy

/-! A copy is equal to its tree. A task that waits stands for everything below the directory of
its route, and it may be done at once or in parts. That holds of every tree that is made from
another one directory by directory. -/

namespace AddonExchange

namespace CopyTask

/-- A task of a subdirectory, seen from the directory that a route reaches. -/
def under (route : List Nat) (task : CopyTask) : CopyTask := ⟨task.source, route ++ task.route⟩

theorem map_under_below (route : List Nat) (held : Nat) (dirs : List Dir) :
    (below [] held dirs).map (under route) = below route held dirs := by
  rw [below, below, List.map_reverse, List.map_map]
  rfl

/-- The tasks for the later subdirectories are done before the task for the first one. -/
theorem below_cons (route : List Nat) (held : Nat) (dir : Dir) (rest : List Dir) :
    below route held (dir :: rest) =
      below route (held + 1) rest ++ [⟨dir, route ++ [held]⟩] := by
  rw [below, List.zipIdx_cons, List.map_cons, List.reverse_cons]
  rfl

end CopyTask

namespace Dir

theorem along?_append (dir : Dir) (route rest : List Nat) :
    dir.along? (route ++ rest) = (dir.along? route).bind (·.along? rest) := by
  induction route generalizing dir with
  | nil => rfl
  | cons position later ih =>
    rw [List.cons_append, along?, along?, Option.bind_assoc]
    exact Option.bind_congr fun child _ => ih child

theorem along?_child {tree dir child : Dir} {route : List Nat} {position : Nat}
    (reached : tree.along? route = some dir) (held : dir.dirs[position]? = some child) :
    tree.along? (route ++ [position]) = some child := by
  rw [along?_append, reached, Option.bind_some, along?, held]
  rfl

theorem changeAlong_append (dir : Dir) (change : Dir → Dir) (route rest : List Nat) :
    dir.changeAlong change (route ++ rest) =
      dir.changeAlong (fun found => found.changeAlong change rest) route := by
  induction route generalizing dir with
  | nil => rfl
  | cons position later ih =>
    rw [List.cons_append, changeAlong, changeAlong]
    simp only [ih]

theorem changeAlong_changeAlong (dir : Dir) (first second : Dir → Dir) (route : List Nat) :
    (dir.changeAlong first route).changeAlong second route =
      dir.changeAlong (fun found => second (first found)) route := by
  induction route generalizing dir with
  | nil => rfl
  | cons position rest ih =>
    rw [changeAlong, changeAlong, changeAlong, List.modify_modify_eq]
    simp only [Function.comp_def, ih]

private theorem modify_congr {first second : Dir → Dir} {dirs : List Dir} {position : Nat}
    (same : ∀ child, dirs[position]? = some child → first child = second child) :
    dirs.modify position first = dirs.modify position second := by
  refine List.ext_getElem? fun other => ?_
  rw [List.getElem?_modify, List.getElem?_modify]
  by_cases here : position = other
  · subst here
    cases held : dirs[position]? with
    | none => rfl
    | some child => simp [same child held]
  · simp [here]

private theorem changeAlong_congr (dir : Dir) {first second : Dir → Dir} {route : List Nat}
    (same : ∀ found, dir.along? route = some found → first found = second found) :
    dir.changeAlong first route = dir.changeAlong second route := by
  induction route generalizing dir with
  | nil => exact same dir rfl
  | cons position rest ih =>
    have changed : dir.dirs.modify position (fun child => child.changeAlong first rest) =
        dir.dirs.modify position fun child => child.changeAlong second rest := by
      refine modify_congr fun child held => ih child fun found reached => same found ?_
      rw [along?, held]
      exact reached
    rw [changeAlong, changeAlong, changed]

section Complete

/-- Does a task at once. What a directory becomes that the task has reached is told by the directory
the task is for. -/
def complete (finish : Dir → Dir → Dir) (made : Dir) (task : CopyTask) : Dir :=
  made.changeAlong (finish task.source) task.route

variable {finish : Dir → Dir → Dir}

/-- Tasks below the directory that a route reaches change this directory and nothing else. -/
theorem foldl_complete_under (dir : Dir) (change : Dir → Dir) (route : List Nat)
    (tasks : List CopyTask) :
    (tasks.map (CopyTask.under route)).foldl (complete finish) (dir.changeAlong change route) =
      dir.changeAlong (fun found => tasks.foldl (complete finish) (change found)) route := by
  induction tasks generalizing change with
  | nil => rfl
  | cons task rest ih =>
    rw [List.map_cons, List.foldl_cons, complete, CopyTask.under, changeAlong_append,
      changeAlong_changeAlong, ih]
    rfl

/-- Completing what is planted between other subdirectories puts the result in its place. -/
theorem complete_planted (name : Text) (files : List File) (before later : List Dir)
    (dir planted : Dir) :
    complete finish ⟨name, files, before ++ planted :: later⟩ ⟨dir, [before.length]⟩ =
      ⟨name, files, before ++ finish dir planted :: later⟩ := by
  rw [complete, changeAlong, List.modify_eq_take_drop, List.take_left, List.drop_left]
  rfl

/-- Completing what is planted for each of several subdirectories gives their results in order. -/
theorem foldl_complete_below (finish : Dir → Dir → Dir) (plant : Dir → Dir) (name : Text)
    (files : List File) (held dirs : List Dir) :
    (CopyTask.below [] held.length dirs).foldl (complete finish)
        ⟨name, files, held ++ dirs.map plant⟩ =
      ⟨name, files, held ++ dirs.map fun dir => finish dir (plant dir)⟩ := by
  induction dirs generalizing held with
  | nil => rfl
  | cons dir rest ih =>
    -- The later subdirectories are completed first, while this one is still as it was planted.
    have later := ih (held ++ [plant dir])
    rw [List.length_append, List.length_singleton] at later
    rw [CopyTask.below_cons, List.foldl_append, List.map_cons, List.append_cons, later,
      ← List.append_cons]
    exact complete_planted name files held _ dir (plant dir)

/-- A task is done by a change to the directory it has reached and the tasks that take its place,
if that is so when the directory is the root. -/
theorem foldl_complete_changeAlong {source : Dir} {fill : Dir → Dir}
    (filled : ∀ found : Dir, (CopyTask.below [] found.dirs.length source.dirs).foldl
      (complete finish) (fill found) = finish source found)
    (made : Dir) (route : List Nat) :
    (CopyTask.below route ((made.along? route).elim 0 (·.dirs.length)) source.dirs).foldl
        (complete finish) (made.changeAlong fill route) =
      complete finish made ⟨source, route⟩ := by
  rw [← CopyTask.map_under_below, foldl_complete_under, complete]
  refine changeAlong_congr made fun found reached => ?_
  rw [reached]
  exact filled found

end Complete

/-- A directory with the subdirectories of another one added at the end. -/
def withDirsOf (source found : Dir) : Dir := { found with dirs := found.dirs ++ source.dirs }

private theorem withDirsOf_bare (dir : Dir) : withDirsOf dir dir.bare = dir := by
  cases dir
  rfl

/-- Completing the bare copies of subdirectories gives these subdirectories. -/
theorem foldl_complete_addBare (source found : Dir) :
    (CopyTask.below [] found.dirs.length source.dirs).foldl (complete withDirsOf)
        (found.addBare source.dirs) =
      withDirsOf source found := by
  have completed := foldl_complete_below withDirsOf bare found.name found.files
    found.dirs source.dirs
  simp only [withDirsOf_bare, List.map_id'] at completed
  exact completed

theorem copyFrom_eq (copied : Dir) (waiting : List CopyTask) :
    copyFrom copied waiting = waiting.foldl (complete withDirsOf) copied := by
  induction copied, waiting using copyFrom.induct with
  | case1 copied => rw [copyFrom, List.foldl_nil]
  | case2 copied source route waiting held ih =>
    rw [copyFrom, ih, List.foldl_append,
      foldl_complete_changeAlong (foldl_complete_addBare source), List.foldl_cons]

/-- A copy has the names, files, subdirectories and orders of its tree. -/
theorem copy_eq (dir : Dir) : dir.copy = dir := by
  rw [copy, copyFrom_eq]
  exact withDirsOf_bare dir

end Dir

end AddonExchange
