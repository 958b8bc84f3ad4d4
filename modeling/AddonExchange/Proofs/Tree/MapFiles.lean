import AddonExchange.Proofs.Tree.Navigation

namespace AddonExchange.Dir

mutual

/-- A tree with a change made to each of its files. -/
def mapFiles (change : File → File) : Dir → Dir
  | ⟨name, files, dirs⟩ => ⟨name, files.map change, mapFilesAll change dirs⟩

def mapFilesAll (change : File → File) : List Dir → List Dir
  | [] => []
  | dir :: rest => dir.mapFiles change :: mapFilesAll change rest

end

variable {change : File → File}

private theorem mapFilesAll_eq_map (change : File → File) (dirs : List Dir) :
    mapFilesAll change dirs = dirs.map (mapFiles change) := by
  induction dirs with
  | nil => rfl
  | cons dir rest ih => rw [mapFilesAll, ih, List.map_cons]

theorem mapFiles_mk (change : File → File) (name : Text) (files : List File)
    (dirs : List Dir) :
    mapFiles change ⟨name, files, dirs⟩ =
      ⟨name, files.map change, dirs.map (mapFiles change)⟩ := by
  rw [mapFiles, mapFilesAll_eq_map]

@[simp]
theorem mapFiles_name (change : File → File) (dir : Dir) :
    (dir.mapFiles change).name = dir.name := by
  cases dir
  rfl

@[simp]
theorem mapFiles_files (change : File → File) (dir : Dir) :
    (dir.mapFiles change).files = dir.files.map change := by
  cases dir
  rfl

@[simp]
theorem mapFiles_dirs (change : File → File) (dir : Dir) :
    (dir.mapFiles change).dirs = dir.dirs.map (mapFiles change) := by
  cases dir
  exact mapFilesAll_eq_map change _

theorem isEmpty_mapFiles (change : File → File) (dir : Dir) :
    (dir.mapFiles change).isEmpty = dir.isEmpty := by
  simp [isEmpty, List.isEmpty_map]

theorem findDir?_mapFiles (change : File → File) (dir : Dir) (name : Text) :
    (dir.mapFiles change).findDir? name = (dir.findDir? name).map (mapFiles change) := by
  simp only [findDir?, mapFiles_dirs, List.find?_map, Function.comp_def, mapFiles_name]

theorem mapFiles_mapFiles (first second : File → File) (dir : Dir) :
    (dir.mapFiles first).mapFiles second = dir.mapFiles (second ∘ first) := by
  induction dir with
  | node name files dirs ih =>
    rw [mapFiles_mk, mapFiles_mk, mapFiles_mk, List.map_map, List.map_map]
    exact congrArg (Dir.mk name _) (List.map_congr_left ih)

theorem mapFiles_eq_self {dir : Dir}
    (unchanged : dir.Everywhere fun dir => ∀ file ∈ dir.files, change file = file) :
    dir.mapFiles change = dir := by
  induction dir with
  | node name files dirs ih =>
    have sameFiles : files.map change = files :=
      (List.map_congr_left unchanged.root).trans (List.map_id' files)
    have sameDirs : dirs.map (mapFiles change) = dirs :=
      (List.map_congr_left fun child member => ih child member (unchanged.child member)).trans
        (List.map_id' dirs)
    rw [mapFiles_mk, sameFiles, sameDirs]

end AddonExchange.Dir
