import AddonExchange.Proofs.Sync.Entries

namespace AddonExchange

namespace Dir

variable {tree : Dir}

section Dropping

/-- A tree without the file of a name in the directory that a path reaches. The directory stays,
even when it is emptied. -/
def dropFile (tree : Dir) (path : List Text) (name : Text) : Dir :=
  tree.changeAt (fun holder => { holder with files := removeFile holder.files name }) path

private theorem dropFile_cons (tree : Dir) (first : Text) (rest : List Text) (name : Text) :
    tree.dropFile (first :: rest) name =
      tree.changeDir first fun child => child.dropFile rest name :=
  rfl

@[simp]
theorem name_dropFile (tree : Dir) (path : List Text) (name : Text) :
    (tree.dropFile path name).name = tree.name := by
  cases path <;> rfl

theorem SiblingUnique.dropFile (unique : tree.SiblingUnique) (path : List Text) (name : Text) :
    (tree.dropFile path name).SiblingUnique := by
  induction path generalizing tree with
  | nil =>
    rw [siblingUnique_iff]
    have fewer := (removeFile_sublist tree.files name).map File.name
    exact ⟨⟨unique.files.sublist fewer, unique.dirs⟩, fun _ => unique.child⟩
  | cons first rest ih =>
    exact unique.changeDir first (fun child => name_dropFile child rest name) fun _ => ih

/-- Where siblings are distinct, that one file is gone and all others are found as before. -/
theorem lookup?_dropFile (unique : tree.SiblingUnique) (path : List Text) (name : Text)
    (place : List Text) (sought : Text) :
    (tree.dropFile path name).lookup? place sought =
      if place = path ∧ sought = name then none else tree.lookup? place sought := by
  induction path generalizing tree place with
  | nil =>
    cases place with
    | nil =>
      simp only [true_and]
      exact find?_removeFile unique.files name sought
    | cons first rest =>
      rw [if_neg (by simp)]
      rfl
  | cons first rest ih =>
    cases place with
    | nil =>
      rw [if_neg (by simp)]
      rfl
    | cons other further =>
      rw [dropFile_cons, lookup?_cons, lookup?_cons,
        findDir?_changeDir fun child => name_dropFile child rest name]
      cases found : tree.findDir? other with
      | none => simp
      | some child =>
        by_cases same : other = first
        · have childUnique := unique.child (findDir?_mem found)
          simp [same, ih childUnique]
        · simp [same]

end Dropping

end Dir

namespace UpdatePack

def withoutAddition (pack : UpdatePack) (path : List Text) (name : Text) : UpdatePack :=
  { pack with additions := pack.additions.dropFile path name }

def withoutRemoval (pack : UpdatePack) (path : List Text) (name : Text) : UpdatePack :=
  { pack with removals := pack.removals.dropFile path name }

end UpdatePack

namespace Dir

section Needed

variable {dir source target : Dir} {pack : UpdatePack}

private theorem lookup?_apply_withoutAddition (unique : dir.SiblingUnique)
    (removalsUnique : pack.removals.SiblingUnique)
    (additionsUnique : pack.additions.SiblingUnique) (path : List Text) (name : Text) :
    (dir.apply (pack.withoutAddition path name)).lookup? path name =
      if (pack.removals.lookup? path name).isSome then none else dir.lookup? path name := by
  have sameRemovals : (pack.withoutAddition path name).removals.SiblingUnique := removalsUnique
  have lessUnique : (pack.withoutAddition path name).additions.SiblingUnique :=
    additionsUnique.dropFile path name
  have dropped : (pack.withoutAddition path name).additions.lookup? path name = none := by
    rw [UpdatePack.withoutAddition, lookup?_dropFile additionsUnique, if_pos ⟨rfl, rfl⟩]
  rw [lookup?_apply unique sameRemovals lessUnique, dropped, Option.none_or]
  rfl

private theorem lookup?_apply_withoutRemoval (unique : dir.SiblingUnique)
    (removalsUnique : pack.removals.SiblingUnique)
    (additionsUnique : pack.additions.SiblingUnique) (path : List Text) (name : Text) :
    (dir.apply (pack.withoutRemoval path name)).lookup? path name =
      (pack.additions.lookup? path name).or (dir.lookup? path name) := by
  have lessUnique : (pack.withoutRemoval path name).removals.SiblingUnique :=
    removalsUnique.dropFile path name
  have sameAdditions : (pack.withoutRemoval path name).additions.SiblingUnique := additionsUnique
  have dropped : (pack.withoutRemoval path name).removals.lookup? path name = none := by
    rw [UpdatePack.withoutRemoval, lookup?_dropFile removalsUnique, if_pos ⟨rfl, rfl⟩]
  rw [lookup?_apply unique lessUnique sameAdditions, dropped]
  rfl

/-- Between trees with distinct siblings every file of a pack is needed. Without one of the
additions the update lacks a file of the target. Without one of the removals that nothing replaces
it has a file that the target lacks. -/
theorem every_file_of_pack_needed (sourceUnique : source.SiblingUnique)
    (targetUnique : target.SiblingUnique) :
    let pack := UpdatePack.between source target
    (∀ path name, pack.additions.HasEntry path (.file name) →
      (source.apply (pack.withoutAddition path name)).contains target = false) ∧
    ∀ path name, pack.removals.HasEntry path (.file name) →
      ¬ pack.additions.HasEntry path (.file name) →
        target.contains (source.apply (pack.withoutRemoval path name)) = false := by
  intro pack
  have removalsUnique : pack.removals.SiblingUnique :=
    UpdatePack.removalsUnique_between sourceUnique
  have additionsUnique : pack.additions.SiblingUnique :=
    UpdatePack.additionsUnique_between targetUnique
  have removed {path : List Text} {name : Text} : pack.removals.HasEntry path (.file name) ↔
      ∃ old, source.lookup? path name = some old ∧
        target.hashAt? path name ≠ some old.hashOf := by
    rw [UpdatePack.removals_between, hasEntry_file_missing_iff targetUnique sourceUnique]
  constructor
  · intro path name added
    rw [UpdatePack.additions_between, hasEntry_file_missing_iff sourceUnique targetUnique] at added
    obtain ⟨file, wanted, lacked⟩ := added
    refine not_contains_of_hashAt? (sourceUnique.apply _) targetUnique wanted ?_
    rw [hashAt?, lookup?_apply_withoutAddition sourceUnique removalsUnique additionsUnique]
    cases former : source.lookup? path name with
    | none => simp
    | some old =>
      -- The file that the source has in this place is another one, so it is removed.
      have differs : target.hashAt? path name ≠ some old.hashOf := by
        simpa [hashAt?, former, wanted, eq_comm] using lacked
      have listed := (hasEntry_file_iff removalsUnique).mp (removed.mpr ⟨old, former, differs⟩)
      simp [listed]
  · intro path name listed notReplaced
    rw [hasEntry_file_iff additionsUnique, Option.not_isSome_iff_eq_none] at notReplaced
    obtain ⟨old, former, unwanted⟩ := removed.mp listed
    refine not_contains_of_hashAt? targetUnique (sourceUnique.apply _) ?_ unwanted
    rw [lookup?_apply_withoutRemoval sourceUnique removalsUnique additionsUnique, notReplaced,
      former, Option.none_or]

theorem every_file_of_pack_needed_release :
    oldRelease.SiblingUnique ∧ newRelease.SiblingUnique ∧
      let pack := UpdatePack.between oldRelease newRelease
      pack.additions.HasEntry ["units", "elves"] (.file "archer.cfg") ∧
        (oldRelease.apply (pack.withoutAddition ["units", "elves"] "archer.cfg")).contains
          newRelease = false ∧
        pack.removals.HasEntry ["old"] (.file "gone") ∧
        ¬ pack.additions.HasEntry ["old"] (.file "gone") ∧
        newRelease.contains (oldRelease.apply (pack.withoutRemoval ["old"] "gone")) = false := by
  have oldUnique : oldRelease.SiblingUnique := by decide
  have newUnique : newRelease.SiblingUnique := by decide
  refine ⟨oldUnique, newUnique, ?_⟩
  intro pack
  obtain ⟨additionsNeeded, removalsNeeded⟩ := every_file_of_pack_needed oldUnique newUnique
  have added : pack.additions.HasEntry ["units", "elves"] (.file "archer.cfg") := by
    rw [hasEntry_file_iff (UpdatePack.additionsUnique_between newUnique)]
    decide +kernel
  have removed : pack.removals.HasEntry ["old"] (.file "gone") := by
    rw [hasEntry_file_iff (UpdatePack.removalsUnique_between oldUnique)]
    decide +kernel
  have notReplaced : ¬ pack.additions.HasEntry ["old"] (.file "gone") := by
    rw [hasEntry_file_iff (UpdatePack.additionsUnique_between newUnique)]
    decide +kernel
  exact ⟨added, additionsNeeded _ _ added, removed, notReplaced,
    removalsNeeded _ _ removed notReplaced⟩

end Needed

end Dir

end AddonExchange
