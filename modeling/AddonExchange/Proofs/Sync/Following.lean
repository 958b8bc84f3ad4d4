import AddonExchange.Proofs.Tree.Change
import AddonExchange.Sync.UpdatePack

/-! Following a list through a tree. The tasks that wait change a tree as the lists would that are
followed at once, each into its subdirectories from the last to the first, and whatever a change
keeps in the directory that it is for is kept in the tree. -/

namespace AddonExchange.Dir

section Places

variable {dir : Dir} {first second : Dir → Dir}

private theorem changeAt_append (dir : Dir) (change : Dir → Dir) (path below : List Text) :
    dir.changeAt change (path ++ below) =
      dir.changeAt (fun found => found.changeAt change below) path := by
  induction path generalizing dir with
  | nil => rfl
  | cons name rest ih =>
    rw [List.cons_append, changeAt, changeAt]
    simp only [ih]

private theorem name_changeAt (keepsName : ∀ found, (first found).name = found.name)
    (dir : Dir) (path : List Text) : (dir.changeAt first path).name = dir.name := by
  cases path with
  | nil => exact keepsName dir
  | cons name rest => rfl

private theorem changeFirst_changeFirst (keepsName : ∀ child, (first child).name = child.name)
    (name : Text) (dirs : List Dir) :
    changeFirst name second (changeFirst name first dirs) =
      changeFirst name (fun child => second (first child)) dirs := by
  induction dirs with
  | nil => rfl
  | cons dir rest ih =>
    by_cases same : dir.name = name <;> simp [changeFirst, same, ih, keepsName]

/-- Two changes in one place are one, if the first leaves the place where it was. -/
theorem changeAt_changeAt (keepsName : ∀ found, (first found).name = found.name) (dir : Dir)
    (path : List Text) :
    (dir.changeAt first path).changeAt second path =
      dir.changeAt (fun found => second (first found)) path := by
  induction path generalizing dir with
  | nil => rfl
  | cons name rest ih =>
    rw [changeAt, changeAt, changeAt, changeDir, changeDir, changeDir,
      changeFirst_changeFirst fun child => name_changeAt keepsName child rest]
    simp only [ih]

private theorem changeFirst_congr {name : Text} {dirs : List Dir}
    (same : ∀ child, dirs.find? (·.name == name) = some child → first child = second child) :
    changeFirst name first dirs = changeFirst name second dirs := by
  induction dirs with
  | nil => rfl
  | cons dir rest ih =>
    by_cases here : dir.name = name
    · rw [changeFirst, changeFirst, if_pos here, if_pos here, same dir (by simp [here])]
    · rw [changeFirst, changeFirst, if_neg here, if_neg here, ih]
      intro child found
      exact same child (by simpa [here] using found)

theorem changeAt_congr {path : List Text}
    (same : ∀ found, dir.descend? path = some found → first found = second found) :
    dir.changeAt first path = dir.changeAt second path := by
  induction path generalizing dir with
  | nil => exact same dir rfl
  | cons name rest ih =>
    have changed : changeFirst name (fun child => child.changeAt first rest) dir.dirs =
        changeFirst name (fun child => child.changeAt second rest) dir.dirs := by
      refine changeFirst_congr fun child here => ih fun found reached => same found ?_
      rw [descend?, findDir?, here]
      exact reached
    rw [changeAt, changeAt, changeDir, changeDir, changed]

theorem descend?_changeAt (keepsName : ∀ found, (first found).name = found.name) (dir : Dir)
    (path : List Text) :
    (dir.changeAt first path).descend? path = (dir.descend? path).map first := by
  induction path generalizing dir with
  | nil => rfl
  | cons name rest ih =>
    rw [changeAt, descend?, descend?,
      findDir?_changeDir (fun child => name_changeAt keepsName child rest), Option.bind_map,
      Option.map_bind]
    refine Option.bind_congr fun child _ => ?_
    simp only [Function.comp_apply, if_pos]
    exact ih child

private theorem findDir?_eq_none_iff {name : Text} :
    dir.findDir? name = none ↔ name ∉ dir.dirs.map Dir.name := by
  simp [findDir?]

private theorem changeDir_of_absent {name : Text} (absent : dir.findDir? name = none) :
    dir.changeDir name first = dir := by
  have nothing : changeFirst name first dir.dirs = changeFirst name id dir.dirs :=
    changeFirst_congr fun child found => absurd found (by rw [← findDir?, absent]; simp)
  have unchanged (dirs : List Dir) : changeFirst name id dirs = dirs := by
    induction dirs with
    | nil => rfl
    | cons dir rest ih => rw [changeFirst, ih, id, ite_self]
  cases dir
  exact congrArg (Dir.mk _ _) (nothing.trans (unchanged _))

end Places

section Follow

mutual

/-- Follows a list at once: it changes its directory, and then each list in it is followed into its
subdirectory. -/
def follow (change : (list dir : Dir) → Dir) : (list dir : Dir) → Dir
  | ⟨name, files, lists⟩, dir => followAll change lists (change ⟨name, files, lists⟩ dir)

/-- Follows lists into subdirectories, the last one first. -/
def followAll (change : (list dir : Dir) → Dir) : (lists : List Dir) → (dir : Dir) → Dir
  | [], dir => dir
  | list :: rest, dir => (followAll change rest dir).changeDir list.name (follow change list)

end

variable {change : (list dir : Dir) → Dir}

theorem follow_eq (list dir : Dir) :
    follow change list dir = followAll change list.dirs (change list dir) := by
  cases list
  rw [follow]

@[simp]
theorem name_followAll (lists : List Dir) (dir : Dir) :
    (followAll change lists dir).name = dir.name := by
  induction lists with
  | nil => rw [followAll]
  | cons list rest ih =>
    rw [followAll, ← ih]
    rfl

theorem files_followAll (lists : List Dir) (dir : Dir) :
    (followAll change lists dir).files = dir.files := by
  induction lists with
  | nil => rw [followAll]
  | cons list rest ih =>
    rw [followAll, ← ih]
    rfl

/-- The tasks for the subdirectories of a directory follow their lists in it. -/
private theorem foldl_below (lists : List Dir) (dir : Dir) {first : Dir → Dir}
    (keeps : ∀ found, (first found).name = found.name) (path : List Text) :
    (PackTask.below path lists).foldl
        (fun dir task => dir.changeAt (follow change task.list) task.path)
        (dir.changeAt first path) =
      dir.changeAt (fun found => followAll change lists (first found)) path := by
  induction lists with
  | nil => simp [PackTask.below, followAll]
  | cons list rest ih =>
    have later : PackTask.below path (list :: rest) =
        PackTask.below path rest ++ [⟨list, path ++ [list.name]⟩] := by
      rw [PackTask.below, List.map_cons, List.reverse_cons]
      rfl
    rw [later, List.foldl_append, ih, List.foldl_cons, List.foldl_nil, changeAt_append,
      changeAt_changeAt fun found => (name_followAll rest _).trans (keeps found)]
    simp only [followAll, changeAt]

variable (keepsName : ∀ list dir, (change list dir).name = dir.name)

include keepsName

theorem name_follow (list dir : Dir) : (follow change list dir).name = dir.name := by
  rw [follow_eq, name_followAll, keepsName]

theorem map_name_dirs_followAll (lists : List Dir) (dir : Dir) :
    (followAll change lists dir).dirs.map Dir.name = dir.dirs.map Dir.name := by
  induction lists with
  | nil => rw [followAll]
  | cons list rest ih =>
    rw [followAll, ← ih]
    exact map_name_changeFirst (name_follow keepsName list) list.name _

theorem findDir?_followAll (dir : Dir) {lists : List Dir} (distinct : (lists.map Dir.name).Nodup)
    (name : Text) :
    (followAll change lists dir).findDir? name =
      (dir.findDir? name).map fun child =>
        (lists.find? fun list => list.name == name).elim child fun list =>
          follow change list child := by
  induction lists with
  | nil => simp [followAll]
  | cons list rest ih =>
    obtain ⟨fresh, restDistinct⟩ := List.nodup_cons.mp distinct
    rw [followAll, findDir?_changeDir (name_follow keepsName list), ih restDistinct,
      Option.map_map]
    congr 1
    funext child
    by_cases here : name = list.name
    · subst here
      simp [find?_eq_none_of_notMem fresh]
    · have other : list.name ≠ name := Ne.symm here
      simp [here, other]

theorem SiblingUnique.followAll {lists : List Dir} {dir : Dir} (unique : dir.SiblingUnique)
    (keepsUnique : ∀ list ∈ lists, ∀ child : Dir,
      child.SiblingUnique → (follow change list child).SiblingUnique) :
    (Dir.followAll change lists dir).SiblingUnique := by
  induction lists with
  | nil => rwa [Dir.followAll]
  | cons list rest ih =>
    have later := ih fun other member => keepsUnique other (List.mem_cons_of_mem list member)
    rw [Dir.followAll]
    exact later.changeDir list.name (name_follow keepsName list)
      (keepsUnique list List.mem_cons_self)

/-- A change that keeps siblings distinct keeps them so in the tree that a list is followed
through. -/
theorem SiblingUnique.follow
    (keepsUnique : ∀ list dir, SiblingUnique dir → (change list dir).SiblingUnique)
    {dir : Dir} (unique : dir.SiblingUnique) (list : Dir) :
    (Dir.follow change list dir).SiblingUnique := by
  induction list generalizing dir with
  | node name files lists ih =>
    rw [follow_eq]
    exact SiblingUnique.followAll keepsName (keepsUnique _ dir unique)
      fun list member child childUnique => ih list member childUnique

/-- Lists without a subdirectory to be followed into can be left out. -/
private theorem followAll_filter (lists : List Dir) (dir : Dir) :
    followAll change (lists.filter fun list => (dir.findDir? list.name).isSome) dir =
      followAll change lists dir := by
  induction lists with
  | nil => rfl
  | cons list rest ih =>
    cases found : dir.findDir? list.name with
    | some child =>
      rw [List.filter_cons_of_pos (by rw [found]; rfl), followAll, followAll, ih]
    | none =>
      have absent : (followAll change rest dir).findDir? list.name = none := by
        have listed := map_name_dirs_followAll keepsName rest dir
        rw [findDir?_eq_none_iff] at found ⊢
        rwa [listed]
      rw [List.filter_cons_of_neg (by rw [found]; simp), followAll, ih,
        changeDir_of_absent absent]

theorem followFrom_eq_foldl (dir : Dir) (waiting : List PackTask) :
    followFrom change dir waiting =
      waiting.foldl (fun dir task => dir.changeAt (follow change task.list) task.path) dir := by
  induction dir, waiting using followFrom.induct change with
  | case1 dir => rw [followFrom, List.foldl_nil]
  | case2 dir list path waiting changed ih =>
    have reached : changed.descend? path = (dir.descend? path).map (change list) :=
      descend?_changeAt (keepsName list) dir path
    have done : (PackTask.below path (changed.matched path list.dirs)).foldl
        (fun dir task => dir.changeAt (follow change task.list) task.path) changed =
          dir.changeAt (follow change list) path := by
      refine (foldl_below _ dir (keepsName list) path).trans ?_
      refine changeAt_congr fun found here => ?_
      rw [follow_eq, matched, reached, here, Option.map_some, Option.elim_some]
      exact followAll_filter keepsName list.dirs (change list found)
    rw [followFrom, ih, List.foldl_append, done, List.foldl_cons]

end Follow

theorem name_dropFiles (list dir : Dir) : (dropFiles list dir).name = dir.name :=
  rfl

theorem name_putFiles (list dir : Dir) : (putFiles list dir).name = dir.name :=
  rfl

theorem remove_eq_follow (dir removals : Dir) :
    dir.remove removals = follow dropFiles removals dir :=
  followFrom_eq_foldl name_dropFiles dir [⟨removals, []⟩]

theorem add_eq_follow (dir additions : Dir) :
    dir.add additions = follow putFiles additions dir :=
  followFrom_eq_foldl name_putFiles dir [⟨additions, []⟩]

end AddonExchange.Dir
