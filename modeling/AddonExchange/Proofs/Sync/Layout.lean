import AddonExchange.Proofs.Sync.Entries
import AddonExchange.Proofs.Sync.Listing

namespace AddonExchange.Dir

variable {dir removals additions : Dir}

section Files

variable {files added : List File} {file : File}

/-- The files that are left of those held when others are removed by their names. -/
def survivors (held removed : List File) : List File :=
  held.filter fun file => file.name ∉ removed.map File.name

/-- The file to stand in the place of one that is held: the one added under its name, if any. -/
def successor (added : List File) (held : File) : File :=
  (added.find? fun file => file.name == held.name).getD held

/-- Files together with others that are added: those under a name that is held stand in its place,
the rest follow. -/
def joinedFiles (held added : List File) : List File :=
  held.map (successor added) ++ added.filter fun file => file.name ∉ held.map File.name

private theorem name_ne_of_fresh {other : File} (fresh : file.name ∉ files.map File.name)
    (member : other ∈ files) : other.name ≠ file.name := by
  intro same
  exact fresh (same ▸ List.mem_map_of_mem member)

private theorem removeFile_eq_filter (distinct : (files.map File.name).Nodup) (name : Text) :
    removeFile files name = files.filter fun file => file.name ≠ name := by
  induction files with
  | nil => rfl
  | cons file rest ih =>
    obtain ⟨fresh, restDistinct⟩ := List.nodup_cons.mp distinct
    by_cases same : file.name = name
    · subst same
      have others : ∀ other ∈ rest, decide (other.name ≠ file.name) = true :=
        fun other member => decide_eq_true (name_ne_of_fresh fresh member)
      rw [removeFile, List.eraseP_cons_of_pos (by simp), List.filter_cons_of_neg (by simp),
        List.filter_eq_self.mpr others]
    · rw [removeFile, List.eraseP_cons_of_neg (by simpa using same),
        List.filter_cons_of_pos (by simpa using same), ← ih restDistinct, removeFile]

private theorem foldl_removeFile_eq_survivors (distinct : (files.map File.name).Nodup)
    (removed : List File) :
    (removed.map File.name).foldl removeFile files = survivors files removed := by
  induction removed generalizing files with
  | nil => simp [survivors]
  | cons file rest ih =>
    have stillDistinct : ((removeFile files file.name).map File.name).Nodup :=
      distinct.sublist ((removeFile_sublist files file.name).map File.name)
    rw [List.map_cons, List.foldl_cons, ih stillDistinct, removeFile_eq_filter distinct, survivors,
      survivors, List.filter_filter]
    refine List.filter_congr fun held _ => ?_
    simp [Bool.and_comm]

private theorem successor_cons (file : File) (rest : List File) (held : File) :
    successor (file :: rest) held =
      if file.name = held.name then file else successor rest held := by
  by_cases same : file.name = held.name <;> simp [successor, same]

private theorem successor_of_fresh (fresh : file.name ∉ added.map File.name) :
    successor added file = file := by
  rw [successor, find?_eq_none_of_notMem fresh, Option.getD_none]

private theorem name_successor (added : List File) (held : File) :
    (successor added held).name = held.name := by
  rw [successor]
  cases found : added.find? fun file => file.name == held.name with
  | none => rfl
  | some file => simpa using List.find?_some found

private theorem map_name_successor (added files : List File) :
    (files.map (successor added)).map File.name = files.map File.name := by
  simp [Function.comp_def, name_successor]

private theorem map_successor_cons_of_fresh (fresh : file.name ∉ files.map File.name)
    (rest : List File) : files.map (successor (file :: rest)) = files.map (successor rest) := by
  refine List.map_congr_left fun held member => ?_
  rw [successor_cons, if_neg (name_ne_of_fresh fresh member).symm]

private theorem putFile_of_fresh (fresh : file.name ∉ files.map File.name) :
    putFile files file = files ++ [file] := by
  induction files with
  | nil => rfl
  | cons held rest ih =>
    have other : held.name ≠ file.name := name_ne_of_fresh fresh List.mem_cons_self
    have restFresh : file.name ∉ rest.map File.name := fun member => fresh (by simp [member])
    rw [putFile, if_neg other, ih restFresh, List.cons_append]

private theorem putFile_of_held (distinct : (files.map File.name).Nodup)
    (held : file.name ∈ files.map File.name) :
    putFile files file = files.map (successor [file]) := by
  induction files with
  | nil => cases held
  | cons first rest ih =>
    obtain ⟨fresh, restDistinct⟩ := List.nodup_cons.mp distinct
    rw [putFile, List.map_cons, successor_cons]
    by_cases same : first.name = file.name
    · have kept : rest.map (successor [file]) = rest :=
        (map_successor_cons_of_fresh (same ▸ fresh) []).trans (List.map_id rest)
      rw [if_pos same, if_pos same.symm, kept]
    · have heldLater : file.name ∈ rest.map File.name := by
        simpa [Ne.symm same] using held
      rw [if_neg same, if_neg (Ne.symm same), ih restDistinct heldLater]
      rfl

private theorem joinedFiles_cons_of_held {rest : List File} (fresh : file.name ∉ rest.map File.name)
    (held : file.name ∈ files.map File.name) :
    joinedFiles files (file :: rest) = joinedFiles (files.map (successor [file])) rest := by
  have replaced : files.map (successor (file :: rest)) =
      (files.map (successor [file])).map (successor rest) := by
    rw [List.map_map]
    refine List.map_congr_left fun old _ => ?_
    rw [Function.comp_apply, successor_cons, successor_cons]
    by_cases same : file.name = old.name
    · rw [if_pos same, if_pos same, successor_of_fresh fresh]
    · rw [if_neg same, if_neg same]
      rfl
  rw [joinedFiles, joinedFiles, map_name_successor, replaced,
    List.filter_cons_of_neg (by simpa using held)]

private theorem joinedFiles_cons_of_fresh {rest : List File}
    (restFresh : file.name ∉ rest.map File.name) (fresh : file.name ∉ files.map File.name) :
    joinedFiles files (file :: rest) = joinedFiles (files ++ [file]) rest := by
  have others : (rest.filter fun other => other.name ∉ (files ++ [file]).map File.name) =
      rest.filter fun other => other.name ∉ files.map File.name := by
    refine List.filter_congr fun other member => ?_
    have different : other.name ≠ file.name := name_ne_of_fresh restFresh member
    simp [different]
  rw [joinedFiles, joinedFiles, others, map_successor_cons_of_fresh fresh, List.map_append,
    List.map_singleton, successor_of_fresh restFresh,
    List.filter_cons_of_pos (by simpa using fresh), List.append_assoc, List.singleton_append]

private theorem foldl_putFile_eq_joinedFiles (distinct : (files.map File.name).Nodup)
    (addedDistinct : (added.map File.name).Nodup) :
    added.foldl putFile files = joinedFiles files added := by
  induction added generalizing files with
  | nil => exact ((List.append_nil _).trans (List.map_id files)).symm
  | cons file rest ih =>
    obtain ⟨restFresh, restDistinct⟩ := List.nodup_cons.mp addedDistinct
    rw [List.foldl_cons]
    by_cases held : file.name ∈ files.map File.name
    · have sameNames : ((files.map (successor [file])).map File.name).Nodup := by
        rw [map_name_successor]
        exact distinct
      rw [putFile_of_held distinct held, ih sameNames restDistinct,
        joinedFiles_cons_of_held restFresh held]
    · have stillDistinct : ((files ++ [file]).map File.name).Nodup := by
        rw [List.map_append, List.map_singleton, ← List.concat_eq_append]
        exact distinct.concat held
      rw [putFile_of_fresh held, ih stillDistinct restDistinct,
        joinedFiles_cons_of_fresh restFresh held]

end Files

section Dirs

variable {dirs : List Dir}

/-- Names followed by those added that are not among them. -/
def joinedNames (held added : List Text) : List Text := held ++ added.filter (· ∉ held)

theorem map_name_ensureDir (dirs : List Dir) (name : Text) :
    (ensureDir dirs name).map Dir.name = joinedNames (dirs.map Dir.name) [name] := by
  rw [ensureDir, joinedNames]
  by_cases held : name ∈ dirs.map Dir.name
  · have there : (dirs.any fun child => child.name == name) = true := by
      simpa using held
    rw [if_pos there, List.filter_cons_of_neg (by simpa using held), List.filter_nil,
      List.append_nil]
  · have absent : ¬ (dirs.any fun child => child.name == name) = true := by
      simpa using held
    rw [if_neg absent, List.filter_cons_of_pos (by simpa using held), List.map_append]
    rfl

private theorem joinedNames_cons {name : Text} {rest : List Text} (fresh : name ∉ rest)
    (held : List Text) :
    joinedNames held (name :: rest) = joinedNames (joinedNames held [name]) rest := by
  by_cases there : name ∈ held
  · simp [joinedNames, there]
  · have others : (rest.filter fun other => other ∉ held ++ [name]) =
        rest.filter fun other => other ∉ held := by
      refine List.filter_congr fun other member => ?_
      have different : other ≠ name := fun same => fresh (same ▸ member)
      simp [different]
    have single : joinedNames held [name] = held ++ [name] := by
      simp [joinedNames, there]
    rw [single, joinedNames, joinedNames, others, List.filter_cons_of_pos (by simpa using there),
      List.append_assoc, List.singleton_append]

private theorem map_name_foldl_ensureDir {names : List Text} (distinct : names.Nodup)
    (dirs : List Dir) :
    (names.foldl ensureDir dirs).map Dir.name = joinedNames (dirs.map Dir.name) names := by
  induction names generalizing dirs with
  | nil => exact (List.append_nil _).symm
  | cons name rest ih =>
    obtain ⟨fresh, restDistinct⟩ := List.nodup_cons.mp distinct
    rw [List.foldl_cons, ih restDistinct, map_name_ensureDir, ← joinedNames_cons fresh]

theorem dirNames_remove (dir removals : Dir) : (dir.remove removals).dirNames = dir.dirNames := by
  rw [remove_eq_follow, follow_eq]
  exact map_name_dirs_followAll name_dropFiles removals.dirs _

theorem dirNames_add (dir : Dir) (distinct : additions.dirNames.Nodup) :
    (dir.add additions).dirNames = joinedNames dir.dirNames additions.dirNames := by
  rw [add_eq_follow, follow_eq]
  exact (map_name_dirs_followAll name_putFiles additions.dirs _).trans
    (map_name_foldl_ensureDir distinct dir.dirs)

end Dirs

section Paths

variable {α : Type} {listed : Dir → List α} {path : List Text}

/-- What removing does to each directory it does under each path, if it changes nothing where there
is no directory and where nothing is removed. -/
theorem listedAt_remove (left : List α → List File → List α)
    (here : ∀ dir removals : Dir, dir.SiblingUnique →
      listed (dir.remove removals) = left (listed dir) removals.files)
    (absent : ∀ removed, left [] removed = []) (kept : ∀ held, left held [] = held)
    (unique : dir.SiblingUnique) (removalsUnique : removals.SiblingUnique) (path : List Text) :
    (dir.remove removals).listedAt listed path =
      left (dir.listedAt listed path) (removals.filesAt path) := by
  induction path generalizing dir removals with
  | nil => exact here dir removals unique
  | cons first rest ih =>
    rw [listedAt_cons, listedAt_cons, filesAt, listedAt_cons, findDir?_remove dir removalsUnique]
    cases found : dir.findDir? first with
    | none => exact (absent _).symm
    | some child =>
      cases listed : removals.findDir? first with
      | none => exact (kept _).symm
      | some list =>
        have childUnique := unique.child (findDir?_mem found)
        exact ih childUnique (removalsUnique.child (findDir?_mem listed))

/-- What adding does to each directory, those made for it included, it does under each path, if it
changes nothing where nothing is added. -/
theorem listedAt_add (joined : List α → List α → List α)
    (here : ∀ dir additions : Dir, dir.SiblingUnique → additions.SiblingUnique →
      listed (dir.add additions) = joined (listed dir) (listed additions))
    (empty : ∀ name, listed ⟨name, [], []⟩ = []) (kept : ∀ held, joined held [] = held)
    (unique : dir.SiblingUnique) (additionsUnique : additions.SiblingUnique) (path : List Text) :
    (dir.add additions).listedAt listed path =
      joined (dir.listedAt listed path) (additions.listedAt listed path) := by
  induction path generalizing dir additions with
  | nil => exact here dir additions unique additionsUnique
  | cons first rest ih =>
    -- A directory that is not there is made first, so the path goes on below its counterpart.
    rw [← listedAt_counterpart empty dir, listedAt_cons, listedAt_cons,
      findDir?_add dir additionsUnique]
    cases added : additions.findDir? first with
    | none =>
      rw [Option.elim_none, Option.elim_none, kept, listedAt_counterpart empty, listedAt_cons]
    | some list =>
      have listUnique := additionsUnique.child (findDir?_mem added)
      exact ih (unique.counterpart first) listUnique

theorem filesAt_remove (unique : dir.SiblingUnique) (removalsUnique : removals.SiblingUnique)
    (path : List Text) :
    (dir.remove removals).filesAt path = survivors (dir.filesAt path) (removals.filesAt path) := by
  refine listedAt_remove survivors ?_ (fun _ => rfl) ?_ unique removalsUnique path
  · intro dir removals unique
    rw [remove_files, foldl_removeFile_eq_survivors unique.files]
  · intro held
    simp [survivors]

theorem dirNamesAt_remove (unique : dir.SiblingUnique) (removalsUnique : removals.SiblingUnique)
    (path : List Text) : (dir.remove removals).dirNamesAt path = dir.dirNamesAt path :=
  listedAt_remove (fun held _ => held) (fun dir removals _ => dirNames_remove dir removals)
    (fun _ => rfl) (fun _ => rfl) unique removalsUnique path

theorem filesAt_add (unique : dir.SiblingUnique) (additionsUnique : additions.SiblingUnique)
    (path : List Text) :
    (dir.add additions).filesAt path = joinedFiles (dir.filesAt path) (additions.filesAt path) := by
  refine listedAt_add joinedFiles ?_ (fun _ => rfl) ?_ unique additionsUnique path
  · intro dir additions unique additionsUnique
    rw [add_files, foldl_putFile_eq_joinedFiles unique.files additionsUnique.files]
  · intro held
    exact (List.append_nil _).trans (List.map_id held)

theorem dirNamesAt_add (unique : dir.SiblingUnique) (additionsUnique : additions.SiblingUnique)
    (path : List Text) :
    (dir.add additions).dirNamesAt path =
      joinedNames (dir.dirNamesAt path) (additions.dirNamesAt path) := by
  refine listedAt_add joinedNames ?_ (fun _ => rfl) ?_ unique additionsUnique path
  · intro dir additions _ additionsUnique
    exact dirNames_add dir additionsUnique.dirs
  · intro held
    exact List.append_nil held

end Paths

section Apply

variable {pack : UpdatePack}

/-- What a pack does under each path of a tree, where siblings are distinct in the tree and in both
lists of the pack. -/
theorem apply_under_each_path (unique : dir.SiblingUnique)
    (removalsUnique : pack.removals.SiblingUnique)
    (additionsUnique : pack.additions.SiblingUnique) :
    let result := dir.apply pack
    result.SiblingUnique ∧ result.name = dir.name ∧
      ∀ path,
        (∀ name, result.lookup? path name =
          match pack.additions.lookup? path name, pack.removals.lookup? path name with
          | some added, _ => some added
          | none, some _ => none
          | none, none => dir.lookup? path name) ∧
        ((result.descend? path).isSome ↔
          (dir.descend? path).isSome ∨ (pack.additions.descend? path).isSome) ∧
        result.dirNamesAt path =
          joinedNames (dir.dirNamesAt path) (pack.additions.dirNamesAt path) ∧
        result.filesAt path =
          joinedFiles (survivors (dir.filesAt path) (pack.removals.filesAt path))
            (pack.additions.filesAt path) := by
  intro result
  have applied : result = (dir.remove pack.removals).add pack.additions := dir.apply_eq pack
  have removedUnique := unique.remove pack.removals
  refine ⟨unique.apply pack, ?_, fun path => ⟨?_, ?_, ?_, ?_⟩⟩
  · rw [applied]
    exact (add_name _ _).trans (remove_name _ _)
  · intro name
    rw [lookup?_apply unique removalsUnique additionsUnique]
    cases pack.additions.lookup? path name with
    | some added => rfl
    | none => cases pack.removals.lookup? path name <;> rfl
  · rw [applied, isSome_descend?_add additionsUnique, isSome_descend?_remove removalsUnique]
  · rw [applied, dirNamesAt_add removedUnique additionsUnique,
      dirNamesAt_remove unique removalsUnique]
  · rw [applied, filesAt_add removedUnique additionsUnique, filesAt_remove unique removalsUnique]

/-- A pack that no two trees give: it removes what is not there, puts files back that it removes,
and fills directories that it has to make. -/
def handmadePack : UpdatePack where
  removals :=
    ⟨"", [⟨"main.cfg", none, none⟩, ⟨"absent.cfg", none, none⟩],
      [⟨"nowhere", [⟨"gone", none, none⟩], []⟩, ⟨"old", [⟨"gone", none, none⟩], []⟩]⟩
  additions :=
    ⟨"", [⟨"new.cfg", some [0x64], none⟩, ⟨"main.cfg", none, none⟩, ⟨"kept.cfg", some [], none⟩],
      [⟨"units", [], [⟨"elves", [⟨"archer.cfg", some [], none⟩], []⟩]⟩,
        ⟨"maps", [⟨"second.map", none, none⟩], []⟩]⟩

theorem apply_under_each_path_handmadePack :
    installedCopy.SiblingUnique ∧ handmadePack.removals.SiblingUnique ∧
      handmadePack.additions.SiblingUnique ∧
      let result := installedCopy.apply handmadePack
      result.dirNamesAt [] = ["old", "saves", "maps", "units"] ∧
        result.filesAt [] =
          [⟨"kept.cfg", some [], none⟩, ⟨"new.cfg", some [0x64], none⟩,
            ⟨"main.cfg", none, none⟩] := by
  have copyUnique : installedCopy.SiblingUnique := by decide
  have removalsUnique : handmadePack.removals.SiblingUnique := by decide
  have additionsUnique : handmadePack.additions.SiblingUnique := by decide
  have applied := apply_under_each_path copyUnique removalsUnique additionsUnique
  obtain ⟨_, _, dirNames, files⟩ := applied.2.2 []
  refine ⟨copyUnique, removalsUnique, additionsUnique, dirNames.trans ?_, files.trans ?_⟩
  · decide
  · decide

end Apply

end AddonExchange.Dir
