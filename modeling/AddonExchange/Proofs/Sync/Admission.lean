import AddonExchange.Proofs.Admission.Admitted
import AddonExchange.Proofs.Sync.Entries

/-! What an update does to the checks of names. Names stay legal. Clashes can come from
directories that the update leaves behind: the target may have something of their name in another
case, or a file of their very name. -/

namespace AddonExchange.Dir

open CaseClash (key)

variable {source target : Dir} {path : List Text} {entry : Entry}

section Entries

variable (sourceUnique : source.SiblingUnique) (targetUnique : target.SiblingUnique)

include sourceUnique targetUnique

/-- An update leaves the directories of the source and what is needed of the target. -/
theorem hasEntry_apply_between :
    (source.apply (UpdatePack.between source target)).HasEntry path entry ↔
      (∃ name, entry = .dir name ∧ source.HasEntry path (.dir name)) ∨
        target.Stocks path entry := by
  cases entry with
  | file name =>
    rw [hasEntry_file_apply_between sourceUnique targetUnique]
    simp [Stocks]
  | dir name =>
    rw [hasEntry_dir_apply_between sourceUnique targetUnique]
    simp

theorem allLegal_apply_between (sourceLegal : IllegalNames.allLegal source = true)
    (targetLegal : IllegalNames.allLegal target = true) :
    IllegalNames.allLegal (source.apply (UpdatePack.between source target)) = true := by
  rw [IllegalNames.allLegal_iff_hasEntry] at sourceLegal targetLegal ⊢
  intro path entry has
  rcases (hasEntry_apply_between sourceUnique targetUnique).mp has with ⟨name, rfl, kept⟩ | brought
  · exact sourceLegal path (.dir name) kept
  · exact targetLegal path entry brought.hasEntry

end Entries

/-- An update of admitted trees keeps all names legal. It causes a clash exactly where a directory
of the source stays beside an entry of the target that has its name in another case, or is a file
of its name. -/
theorem admission_of_apply_between (sourceAdmitted : source.Admitted)
    (targetAdmitted : target.Admitted) :
    let result := source.apply (UpdatePack.between source target)
    IllegalNames.allLegal result = true ∧
      (CaseClash.isFree result = true ↔
        ∀ path name entry, source.HasEntry path (.dir name) → target.Stocks path entry →
          key entry.name = key name → entry = .dir name) := by
  intro result
  have sourceUnique := CaseClash.siblingUnique_of_isFree sourceAdmitted.clashFree
  have targetUnique := CaseClash.siblingUnique_of_isFree targetAdmitted.clashFree
  have sourceApart := (CaseClash.isFree_iff_hasEntry sourceUnique).mp sourceAdmitted.clashFree
  have targetApart := (CaseClash.isFree_iff_hasEntry targetUnique).mp targetAdmitted.clashFree
  have entries {path : List Text} {entry : Entry} : result.HasEntry path entry ↔ _ :=
    hasEntry_apply_between sourceUnique targetUnique
  refine ⟨allLegal_apply_between sourceUnique targetUnique sourceAdmitted.namesLegal
    targetAdmitted.namesLegal, ?_⟩
  rw [CaseClash.isFree_iff_hasEntry (sourceUnique.apply _)]
  constructor
  · intro apart path name entry kept brought sameKey
    have keptThere := entries.mpr (Or.inl ⟨name, rfl, kept⟩)
    exact apart path entry (.dir name) (entries.mpr (Or.inr brought)) keptThere sameKey
  · intro noneLeft path first second firstThere secondThere sameKey
    rcases entries.mp firstThere with ⟨name, rfl, kept⟩ | brought <;>
      rcases entries.mp secondThere with ⟨other, rfl, otherKept⟩ | otherBrought
    · exact sourceApart path (.dir name) (.dir other) kept otherKept sameKey
    · exact (noneLeft path name second kept otherBrought sameKey.symm).symm
    · exact noneLeft path other first otherKept brought sameKey
    · exact targetApart path first second brought.hasEntry otherBrought.hasEntry sameKey

theorem admission_of_apply_between_release :
    oldRelease.Admitted ∧ newRelease.Admitted ∧
      let result := oldRelease.apply (UpdatePack.between oldRelease newRelease)
      IllegalNames.allLegal result = true ∧
        (CaseClash.isFree result = true ↔
          ∀ path name entry, oldRelease.HasEntry path (.dir name) →
            newRelease.Stocks path entry → key entry.name = key name → entry = .dir name) := by
  have oldAdmitted : oldRelease.Admitted := by decide +kernel
  have newAdmitted : newRelease.Admitted := by decide +kernel
  exact ⟨oldAdmitted, newAdmitted, admission_of_apply_between oldAdmitted newAdmitted⟩

/-- A release whose only directory is renamed in the next one. -/
def beforeRename : Dir := ⟨"addon", [], [⟨"Maps", [⟨"first.map", some [0x61], none⟩], []⟩]⟩

/-- The same release with the name in lower case. -/
def afterRename : Dir := ⟨"addon", [], [⟨"maps", [⟨"first.map", some [0x61], none⟩], []⟩]⟩

/-- A directory that gets its name in another case is left behind empty, and clashes. -/
theorem renamed_directory_clashes :
    beforeRename.Admitted ∧ afterRename.Admitted ∧
      ¬ (beforeRename.apply (UpdatePack.between beforeRename afterRename)).Admitted := by
  decide +kernel

end AddonExchange.Dir
