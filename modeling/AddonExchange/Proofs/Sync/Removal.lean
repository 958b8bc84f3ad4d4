import AddonExchange.Proofs.Sync.Following

namespace AddonExchange.Dir

variable {dir removals : Dir} {files : List File}

@[simp]
theorem remove_name (dir removals : Dir) : (dir.remove removals).name = dir.name := by
  rw [remove_eq_follow, name_follow name_dropFiles]

theorem remove_files (dir removals : Dir) :
    (dir.remove removals).files = (removals.files.map File.name).foldl removeFile dir.files := by
  rw [remove_eq_follow, follow_eq, files_followAll, dropFiles]

theorem removeFile_sublist (files : List File) (name : Text) :
    (removeFile files name).Sublist files :=
  List.eraseP_sublist

theorem foldl_removeFile_sublist (names : List Text) (files : List File) :
    (names.foldl removeFile files).Sublist files := by
  induction names generalizing files with
  | nil => exact List.Sublist.refl files
  | cons name rest ih => exact (ih (removeFile files name)).trans (removeFile_sublist files name)

theorem find?_removeFile (distinct : (files.map File.name).Nodup) (name sought : Text) :
    (removeFile files name).find? (fun file => file.name == sought) =
      if sought = name then none else files.find? fun file => file.name == sought := by
  induction files with
  | nil => simp [removeFile]
  | cons file rest ih =>
    obtain ⟨fresh, restDistinct⟩ := List.nodup_cons.mp distinct
    rw [removeFile] at ih ⊢
    by_cases same : file.name = name
    · subst same
      rw [List.eraseP_cons_of_pos (by simp)]
      by_cases here : sought = file.name
      · subst here
        rw [if_pos rfl]
        exact find?_eq_none_of_notMem fresh
      · have other : file.name ≠ sought := Ne.symm here
        simp [here, other]
    · rw [List.eraseP_cons_of_neg (by simpa using same)]
      by_cases here : file.name = sought
      · subst here
        simp [same]
      · simp [here, ih restDistinct]

private theorem find?_foldl_removeFile (distinct : (files.map File.name).Nodup) (names : List Text)
    (sought : Text) :
    (names.foldl removeFile files).find? (fun file => file.name == sought) =
      if names.contains sought then none else files.find? fun file => file.name == sought := by
  induction names generalizing files with
  | nil => simp
  | cons name rest ih =>
    have stillDistinct : ((removeFile files name).map File.name).Nodup :=
      distinct.sublist ((removeFile_sublist files name).map File.name)
    rw [List.foldl_cons, ih stillDistinct, find?_removeFile distinct]
    by_cases here : sought = name <;> simp [here]

theorem findFile?_remove (unique : dir.SiblingUnique) (removals : Dir) (name : Text) :
    (dir.remove removals).findFile? name =
      if (removals.findFile? name).isSome then none else dir.findFile? name := by
  have listed : (removals.files.map File.name).contains name =
      (removals.findFile? name).isSome := by
    rw [Bool.eq_iff_iff]
    simp [findFile?]
  rw [findFile?, remove_files, find?_foldl_removeFile unique.files, listed]
  rfl

theorem findDir?_remove (dir : Dir) (removalsUnique : removals.SiblingUnique) (name : Text) :
    (dir.remove removals).findDir? name =
      (dir.findDir? name).map fun child => (removals.findDir? name).elim child child.remove := by
  have followed (child : Dir) : child.remove = fun list => follow dropFiles list child :=
    funext (remove_eq_follow child)
  simp only [followed]
  rw [follow_eq, findDir?_followAll name_dropFiles _ removalsUnique.dirs]
  rfl

/-- Removing takes away what the removals have at the same place and nothing else. -/
theorem lookup?_remove (unique : dir.SiblingUnique) (removalsUnique : removals.SiblingUnique)
    (path : List Text) (name : Text) :
    (dir.remove removals).lookup? path name =
      if (removals.lookup? path name).isSome then none else dir.lookup? path name := by
  induction path generalizing dir removals with
  | nil => exact findFile?_remove unique removals name
  | cons first rest ih =>
    rw [lookup?_cons, lookup?_cons, lookup?_cons, findDir?_remove dir removalsUnique]
    cases found : dir.findDir? first with
    | none => simp
    | some child =>
      cases listed : removals.findDir? first with
      | none => simp
      | some list =>
        have childUnique := unique.child (findDir?_mem found)
        have listUnique := removalsUnique.child (findDir?_mem listed)
        exact ih childUnique listUnique

theorem SiblingUnique.remove (unique : dir.SiblingUnique) (removals : Dir) :
    (dir.remove removals).SiblingUnique := by
  rw [remove_eq_follow]
  refine unique.follow name_dropFiles (fun list dir unique => ?_) removals
  rw [siblingUnique_iff]
  have fewer := foldl_removeFile_sublist (list.files.map File.name) dir.files
  exact ⟨⟨unique.files.sublist (fewer.map File.name), unique.dirs⟩, fun _ => unique.child⟩

end AddonExchange.Dir
