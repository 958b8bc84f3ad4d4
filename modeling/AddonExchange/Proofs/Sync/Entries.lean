import AddonExchange.Proofs.Sync.Convergence
import AddonExchange.Proofs.Tree.Entry

namespace AddonExchange.Dir

variable {dir removals additions source target tree : Dir} {path : List Text} {name : Text}

section Directories

private theorem isSome_descend?_cons (dir : Dir) (first : Text) (rest : List Text) :
    (dir.descend? (first :: rest)).isSome ↔
      ∃ child, dir.findDir? first = some child ∧ (child.descend? rest).isSome := by
  rw [descend?]
  cases dir.findDir? first <;> simp

theorem isSome_descend?_remove (removalsUnique : removals.SiblingUnique) :
    ((dir.remove removals).descend? path).isSome ↔ (dir.descend? path).isSome := by
  induction path generalizing dir removals with
  | nil => exact Iff.rfl
  | cons first rest ih =>
    rw [isSome_descend?_cons, isSome_descend?_cons, findDir?_remove dir removalsUnique]
    cases found : dir.findDir? first with
    | none => simp
    | some child =>
      cases listed : removals.findDir? first with
      | none => simp
      | some list => simp [ih (removalsUnique.child (findDir?_mem listed))]

theorem isSome_descend?_add (additionsUnique : additions.SiblingUnique) :
    ((dir.add additions).descend? path).isSome ↔
      (dir.descend? path).isSome ∨ (additions.descend? path).isSome := by
  induction path generalizing dir additions with
  | nil => simp [descend?]
  | cons first rest ih =>
    rw [isSome_descend?_cons, isSome_descend?_cons, isSome_descend?_cons,
      findDir?_add dir additionsUnique]
    cases listed : additions.findDir? first with
    | none => simp
    | some list =>
      have listUnique := additionsUnique.child (findDir?_mem listed)
      simp only [Option.elim_some, Option.some.injEq, exists_eq_left', ih listUnique]
      cases found : dir.findDir? first with
      | none =>
        rw [counterpart_of_absent found]
        -- A directory that is made has, before it is filled, no path but its own.
        cases rest with
        | nil => simp [descend?]
        | cons second rest => simp [isSome_descend?_cons, findDir?]
      | some child => simp [counterpart_of_found found]

end Directories

section Pruned

/-- Every subdirectory, at any depth, has entries. -/
def Pruned (tree : Dir) : Prop :=
  tree.Everywhere fun dir => ∀ child ∈ dir.dirs, child.isEmpty = false

theorem pruned_missing (withContents : Bool) : (source.missing withContents target).Pruned := by
  induction target generalizing source with
  | node name files dirs ih =>
    rw [Pruned, everywhere_iff]
    constructor
    · intro part member
      rw [dirs_missing] at member
      simpa using (List.mem_filter.mp member).2
    · intro part member
      obtain ⟨child, childMember, rfl⟩ := mem_dirs_missing member
      exact ih child childMember

theorem exists_file_of_pruned (pruned : tree.Pruned) (nonempty : tree.isEmpty = false) :
    ∃ path name, tree.HasEntry path (.file name) := by
  induction tree with
  | node own files dirs ih =>
    cases files with
    | cons file rest =>
      exact ⟨[], file.name, _, .here, file_mem_entries.mpr ⟨file, List.mem_cons_self, rfl⟩⟩
    | nil =>
      cases dirs with
      | nil => cases nonempty
      | cons child rest =>
        have member : child ∈ child :: rest := List.mem_cons_self
        obtain ⟨path, name, has⟩ := ih child member (pruned.child member) (pruned.root child member)
        exact ⟨_, name, has.below (.through member .here)⟩

theorem isEmpty_eq_false_iff_of_pruned (pruned : tree.Pruned) :
    tree.isEmpty = false ↔ ∃ path name, tree.HasEntry path (.file name) := by
  constructor
  · exact exists_file_of_pruned pruned
  · rintro ⟨path, name, holder, reached, listed⟩
    obtain ⟨file, held, _⟩ := file_mem_entries.mp listed
    rw [isEmpty, Bool.and_eq_false_iff, List.isEmpty_eq_false_iff, List.isEmpty_eq_false_iff]
    cases reached with
    | here => exact Or.inl (List.ne_nil_of_mem held)
    | through member _ => exact Or.inr (List.ne_nil_of_mem member)

private theorem stocks_of_pruned (pruned : tree.Pruned) (has : tree.HasEntry path (.dir name)) :
    tree.Stocks path (.dir name) := by
  obtain ⟨holder, reached, listed⟩ := has
  obtain ⟨child, member, rfl⟩ := dir_mem_entries.mp listed
  have childReached := reached.concat member
  have childNonempty : child.isEmpty = false := pruned.at reached child member
  obtain ⟨below, file, within⟩ :=
    exists_file_of_pruned (Everywhere.below pruned childReached) childNonempty
  refine ⟨below, file, ?_⟩
  rw [← List.singleton_append, ← List.append_assoc]
  exact within.below childReached

end Pruned

section Update

variable (sourceUnique : source.SiblingUnique) (targetUnique : target.SiblingUnique)

include sourceUnique targetUnique

theorem hasEntry_file_apply_between :
    (source.apply (UpdatePack.between source target)).HasEntry path (.file name) ↔
      target.HasEntry path (.file name) := by
  have sameHash := hashAt?_apply_between sourceUnique sourceUnique targetUnique
    (fun _ _ => rfl) path name
  rw [hasEntry_file_iff (sourceUnique.apply _), hasEntry_file_iff targetUnique]
  simpa [hashAt?] using congrArg Option.isSome sameHash

/-- Of the target the difference has the files that the source does not have with the same hash at
the same place. -/
theorem hasEntry_file_missing_iff {withContents : Bool} :
    (source.missing withContents target).HasEntry path (.file name) ↔
      ∃ file, target.lookup? path name = some file ∧
        source.hashAt? path name ≠ some file.hashOf := by
  rw [hasEntry_file_iff targetUnique.missing, lookup?_missing sourceUnique targetUnique]
  cases target.lookup? path name with
  | none => simp
  | some file =>
    by_cases kept : source.hashAt? path name = some file.hashOf <;> simp [kept]

private theorem hasEntry_file_additions
    (has : (source.missing true target).HasEntry path (.file name)) :
    target.HasEntry path (.file name) := by
  obtain ⟨file, wanted, _⟩ := (hasEntry_file_missing_iff sourceUnique targetUnique).mp has
  rw [hasEntry_file_iff targetUnique, wanted]
  rfl

/-- The update has the directories of the source and those of the target with a file in them. -/
theorem hasEntry_dir_apply_between :
    (source.apply (UpdatePack.between source target)).HasEntry path (.dir name) ↔
      source.HasEntry path (.dir name) ∨ target.Stocks path (.dir name) := by
  constructor
  · intro has
    rw [hasEntry_dir_iff_descend? (sourceUnique.apply _), apply_eq, UpdatePack.removals_between,
      UpdatePack.additions_between, isSome_descend?_add targetUnique.missing,
      isSome_descend?_remove sourceUnique.missing] at has
    rcases has with kept | made
    · exact Or.inl ((hasEntry_dir_iff_descend? sourceUnique).mpr kept)
    · -- A directory is made for what is added to it, which is a file of the target.
      right
      have listed := (hasEntry_dir_iff_descend? targetUnique.missing).mpr made
      obtain ⟨below, file, added⟩ := stocks_of_pruned (pruned_missing true) listed
      exact ⟨below, file, hasEntry_file_additions sourceUnique targetUnique added⟩
  · rintro (kept | ⟨below, file, wanted⟩)
    · rw [hasEntry_dir_iff_descend? sourceUnique] at kept
      rw [hasEntry_dir_iff_descend? (sourceUnique.apply _), apply_eq, UpdatePack.removals_between,
        UpdatePack.additions_between, isSome_descend?_add targetUnique.missing,
        isSome_descend?_remove sourceUnique.missing]
      exact Or.inl kept
    · apply Stocks.hasEntry
      exact ⟨below, file, (hasEntry_file_apply_between sourceUnique targetUnique).mpr wanted⟩

end Update

end AddonExchange.Dir
