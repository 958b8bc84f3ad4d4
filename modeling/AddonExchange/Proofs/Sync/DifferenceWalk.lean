import AddonExchange.Proofs.Sync.Entries
import AddonExchange.Proofs.Sync.Listing
import AddonExchange.Proofs.Tree.Walk

namespace AddonExchange.Dir

private theorem locatedFiles_of_isEmpty {tree : Dir} (empty : tree.isEmpty = true) :
    tree.locatedFiles = [] := by
  obtain ⟨_, rfl⟩ := exists_name_of_isEmpty empty
  rfl

private theorem flatMap_locatedFiles_filter (parts : List Dir) :
    ((parts.filter fun part => !part.isEmpty).flatMap fun part =>
        part.locatedFiles.map (LocatedFile.below part.name)) =
      parts.flatMap fun part => part.locatedFiles.map (LocatedFile.below part.name) := by
  induction parts with
  | nil => rfl
  | cons part rest ih =>
    rw [List.flatMap_cons, ← ih]
    by_cases empty : part.isEmpty = true
    · rw [List.filter_cons_of_neg (by simp [empty]), locatedFiles_of_isEmpty empty]
      rfl
    · rw [List.filter_cons_of_pos (by simpa using empty), List.flatMap_cons]

/-- Whether the directory that descending along some names finds has no file of the same name and
hash. One that is not there has no files. -/
def Lacks (source : Dir) (located : LocatedFile) : Prop :=
  ∀ held ∈ source.filesAt located.1, held.name = located.2.name →
    held.hashOf ≠ located.2.hashOf

instance (source : Dir) : DecidablePred source.Lacks := fun located =>
  inferInstanceAs (Decidable (∀ held ∈ source.filesAt located.1, _ → _))

section Difference

variable {withContents : Bool} {source target : Dir}

private theorem lacks_nil_iff (source : Dir) (file : File) :
    source.Lacks ([], file) ↔ file.key ∉ source.fileKeys := by
  simp only [key_mem_fileKeys_iff_exists, not_exists, not_and]
  exact Iff.rfl

private theorem lacks_below_iff (source : Dir) (name : Text) (located : LocatedFile) :
    source.Lacks (located.below name) ↔ (source.counterpart name).Lacks located := by
  have sameFiles : (source.counterpart name).filesAt located.1 =
      source.filesAt (located.below name).1 :=
    filesAt_counterpart source name located.1
  rw [Lacks, Lacks, sameFiles]
  rfl

private theorem missingFiles_eq_filter (withContents : Bool) (source target : Dir) :
    missingFiles withContents source target =
      (target.files.filter fun file => source.Lacks ([], file)).map
        (File.listed withContents) := by
  rw [missingFiles]
  congr 1
  refine List.filter_congr fun file _ => ?_
  simp [lacks_nil_iff]

/-- A difference has the files of the second tree that the first one lacks, in the same order and
behind the same names. -/
theorem locatedFiles_missing :
    (source.missing withContents target).locatedFiles =
      (target.locatedFiles.filter fun located => source.Lacks located).map fun located =>
        (located.1, located.2.listed withContents) := by
  induction target generalizing source with
  | node name files dirs ih =>
    rw [locatedFiles_eq, files_missing, dirs_missing, flatMap_locatedFiles_filter,
      missingFiles_eq_filter, locatedFiles_eq, List.filter_append, List.map_append]
    congr 1
    · rw [List.filter_map, List.map_map, List.map_map]
      rfl
    · rw [List.flatMap_map, List.filter_flatMap, List.map_flatMap]
      refine List.flatMap_congr fun child member => ?_
      rw [ih child member, name_missing, List.filter_map, List.map_map, List.map_map]
      have sameTest : (fun located => decide (source.Lacks located)) ∘
          LocatedFile.below child.name =
          fun located => decide ((source.counterpart child.name).Lacks located) := by
        funext located
        exact decide_eq_decide.mpr (lacks_below_iff source child.name located)
      rw [sameTest]
      rfl

/-- In a tree without empty subdirectories each directory below the root holds a file at some
depth. -/
theorem locatedFiles_ne_nil_of_pruned {tree child : Dir} {names : List Text}
    (pruned : tree.Pruned) (reached : tree.At names child) (below : names ≠ []) :
    child.locatedFiles ≠ [] := by
  have childNonempty : child.isEmpty = false := by
    induction reached with
    | here => exact absurd rfl below
    | through member rest ih =>
      cases rest with
      | here => exact pruned.root _ member
      | through inner further => exact ih (pruned.child member) (List.cons_ne_nil _ _)
  have childPruned : child.Pruned := Everywhere.below pruned reached
  obtain ⟨path, name, holder, further, listed⟩ := exists_file_of_pruned childPruned childNonempty
  obtain ⟨file, held, _⟩ := file_mem_entries.mp listed
  exact List.ne_nil_of_mem (mem_locatedFiles_iff.mpr ⟨holder, further, held⟩)

/-- A walk over the difference of two trees is the walk over the second one without the files that
the first one has at the same place, each file with its contents and hash or with its name alone.
No directory below the root is without files. -/
theorem walk_difference (withContents : Bool) (source target : Dir) :
    let part := source.difference withContents target
    part.name = target.name ∧
      target.walk = target.locatedFiles.map (fun located => (located.path, located.2)) ∧
      part.walk =
        (target.locatedFiles.filter fun located => source.Lacks located).map (fun located =>
          (located.path,
            if withContents then ⟨located.2.name, located.2.contents, some located.2.hashOf⟩
            else ⟨located.2.name, none, none⟩)) ∧
      ∀ names child, part.At names child → names ≠ [] → child.locatedFiles ≠ [] := by
  intro part
  have partMissing : part = source.missing withContents target :=
    difference_eq_missing withContents source target
  refine ⟨?_, walk_eq_locatedFiles target, ?_, ?_⟩
  · rw [partMissing, name_missing]
  · rw [partMissing, walk_eq_locatedFiles, locatedFiles_missing, List.map_map]
    refine List.map_congr_left fun located _ => ?_
    have samePath : LocatedFile.path (located.1, located.2.listed withContents) = located.path := by
      rw [LocatedFile.path, LocatedFile.path, name_listed]
    exact Prod.ext samePath rfl
  · intro names child reached below
    rw [partMissing] at reached
    exact locatedFiles_ne_nil_of_pruned (pruned_missing withContents) reached below

theorem walk_difference_release :
    let part := oldRelease.difference true newRelease
    part.walk.map (·.1) = ["main.cfg", "units/elves/archer.cfg"] ∧
      ∃ child, part.At ["units"] child ∧ child.locatedFiles ≠ [] := by
  intro part
  obtain ⟨_, _, walked, filled⟩ := walk_difference true oldRelease newRelease
  have listed : (newRelease.locatedFiles.filter fun located => oldRelease.Lacks located).map
      LocatedFile.path = ["main.cfg", "units/elves/archer.cfg"] := by
    decide +kernel
  have there : (part.descend? ["units"]).isSome = true := by
    decide +kernel
  obtain ⟨child, found⟩ := Option.isSome_iff_exists.mp there
  have reached := at_of_descend? found
  refine ⟨?_, child, reached, filled _ child reached (List.cons_ne_nil _ _)⟩
  rw [walked, List.map_map]
  exact listed

end Difference

end AddonExchange.Dir
