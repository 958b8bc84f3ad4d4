import AddonExchange.Proofs.Admission.CaseClash
import AddonExchange.Proofs.Admission.IllegalNames
import AddonExchange.Proofs.Sync.Order

/-! Where the names in the result of an operation come from. A difference takes its entries from the
tree that it is a part of, and a pack leaves entries of the tree that it is applied to and of its
additions, each in the place it had there. Neither needs names to be distinct. So what the checks of
names accept they accept again in a part, and legal names are all that a pack of them can leave. -/

namespace AddonExchange

theorem IllegalNames.Legal.of_sublist {dir part : Dir} (legal : Legal dir)
    (fewer : part.entries.Sublist dir.entries) : Legal part :=
  fun entry member => legal entry (fewer.subset member)

theorem CaseClash.Distinct.of_sublist {dir part : Dir} (distinct : Distinct dir)
    (fewer : part.entries.Sublist dir.entries) : Distinct part :=
  List.Nodup.sublist (fewer.map fun entry => key entry.name) distinct

namespace Dir

variable {dir additions removals : Dir} {lists : List Dir} {path : List Text} {entry : Entry}

section Change

variable {change : Dir → Dir} {name : Text}

private theorem entries_changeDir (keepsName : ∀ child, (change child).name = child.name)
    (dir : Dir) : (dir.changeDir name change).entries = dir.entries := by
  have sameNames := map_name_changeFirst keepsName name dir.dirs
  rw [entries, entries, changeDir, sameNames]

/-- An entry after a change to one subdirectory was there before, or the change brought it. -/
theorem HasEntry.of_changeDir (keepsName : ∀ child, (change child).name = child.name)
    (has : (dir.changeDir name change).HasEntry path entry) :
    dir.HasEntry path entry ∨ ∃ below, path = name :: below ∧ ∃ child ∈ dir.dirs,
      child.name = name ∧ (change child).HasEntry below entry := by
  cases path with
  | nil =>
    rw [hasEntry_nil_iff, entries_changeDir keepsName, ← hasEntry_nil_iff] at has
    exact Or.inl has
  | cons first below =>
    obtain ⟨child, member, named, within⟩ := hasEntry_cons_iff.mp has
    rcases mem_changeFirst member with kept | ⟨before, earlier, sought, rfl⟩
    · exact Or.inl (hasEntry_cons_iff.mpr ⟨child, kept, named, within⟩)
    · right
      have sameFirst : first = name := by
        rw [← named, keepsName, sought]
      exact ⟨below, by rw [sameFirst], before, earlier, sought, within⟩

end Change

section Follow

variable {change : (list dir : Dir) → Dir}

/-- An entry after lists were followed was there before, or one of the lists brought it below its
subdirectory. -/
theorem HasEntry.of_followAll (brings : (list : Dir) → (below : List Text) → Prop)
    (keepsName : ∀ list dir, (change list dir).name = dir.name)
    (has : (followAll change lists dir).HasEntry path entry)
    (each : ∀ list ∈ lists, ∀ (child : Dir) (below : List Text),
      (follow change list child).HasEntry below entry →
        child.HasEntry below entry ∨ brings list below) :
    dir.HasEntry path entry ∨
      ∃ list ∈ lists, ∃ below, path = list.name :: below ∧ brings list below := by
  induction lists generalizing path with
  | nil =>
    rw [followAll] at has
    exact Or.inl has
  | cons list rest ih =>
    have earlier {path : List Text} (there : (followAll change rest dir).HasEntry path entry) :
        dir.HasEntry path entry ∨
          ∃ other ∈ list :: rest, ∃ below, path = other.name :: below ∧ brings other below := by
      have found := ih there fun other member => each other (List.mem_cons_of_mem list member)
      refine found.imp_right ?_
      intro brought
      obtain ⟨other, member, brings⟩ := brought
      exact ⟨other, List.mem_cons_of_mem list member, brings⟩
    rw [followAll] at has
    rcases has.of_changeDir (name_follow keepsName list) with kept | brought
    · exact earlier kept
    · obtain ⟨below, rfl, child, member, named, within⟩ := brought
      rcases each list List.mem_cons_self child below within with before | listed
      · exact earlier (hasEntry_cons_iff.mpr ⟨child, member, named, before⟩)
      · exact Or.inr ⟨list, List.mem_cons_self, below, rfl, listed⟩

end Follow

theorem HasEntry.of_remove (has : (dir.remove removals).HasEntry path entry) :
    dir.HasEntry path entry := by
  rw [remove_eq_follow] at has
  induction removals generalizing dir path with
  | node name files lists ih =>
    rw [follow_eq] at has
    have found := HasEntry.of_followAll (fun _ _ => False) name_dropFiles has
      fun list member child below within => Or.inl (ih list member within)
    obtain left | ⟨_, _, _, _, impossible⟩ := found
    · cases path with
      | nil =>
        rw [hasEntry_nil_iff] at left ⊢
        have fewer := foldl_removeFile_sublist (files.map File.name) dir.files
        have fewerNames := (fewer.map File.name).map Entry.file
        exact (fewerNames.append_right _).subset left
      | cons first below =>
        rw [hasEntry_cons_iff] at left ⊢
        exact left
    · exact impossible.elim

section Add

/-- Before the subdirectories are filled there are the entries from before and those that the
additions name. -/
theorem mem_entries_putFiles (member : entry ∈ (putFiles additions dir).entries) :
    entry ∈ dir.entries ∨ entry ∈ additions.entries := by
  cases entry with
  | file name =>
    obtain ⟨file, held, named⟩ := file_mem_entries.mp member
    rcases mem_foldl_putFile held with kept | added
    · exact Or.inl (file_mem_entries.mpr ⟨file, kept, named⟩)
    · exact Or.inr (file_mem_entries.mpr ⟨file, added, named⟩)
  | dir name =>
    obtain ⟨child, held, named⟩ := dir_mem_entries.mp member
    rcases mem_foldl_ensureDir held with kept | ⟨made, listed, rfl⟩
    · exact Or.inl (dir_mem_entries.mpr ⟨child, kept, named⟩)
    · obtain ⟨list, within, sameName⟩ := List.mem_map.mp listed
      exact Or.inr (dir_mem_entries.mpr ⟨list, within, sameName.trans named⟩)

theorem HasEntry.of_add (has : (dir.add additions).HasEntry path entry) :
    dir.HasEntry path entry ∨ additions.HasEntry path entry := by
  rw [add_eq_follow] at has
  induction additions generalizing dir path with
  | node name added lists ih =>
    rw [follow_eq] at has
    have found := HasEntry.of_followAll (fun list below => list.HasEntry below entry)
      name_putFiles has fun list member child below within => ih list member within
    rcases found with prepared | ⟨list, member, below, rfl, listed⟩
    · cases path with
      | nil =>
        rw [hasEntry_nil_iff] at prepared ⊢
        rw [hasEntry_nil_iff]
        exact mem_entries_putFiles prepared
      | cons first below =>
        obtain ⟨child, held, named, within⟩ := hasEntry_cons_iff.mp prepared
        rcases mem_foldl_ensureDir held with kept | ⟨made, _, rfl⟩
        · exact Or.inl (hasEntry_cons_iff.mpr ⟨child, kept, named, within⟩)
        · -- A directory that is made is empty until it is filled.
          obtain ⟨holder, reached, listed⟩ := within
          cases reached with
          | here => cases listed
          | through member _ => cases member
    · exact Or.inr (hasEntry_cons_iff.mpr ⟨list, member, rfl, listed⟩)

end Add

/-- What a pack leaves was in the tree before or is in its additions, under the same path. -/
theorem HasEntry.of_apply {pack : UpdatePack} (has : (dir.apply pack).HasEntry path entry) :
    dir.HasEntry path entry ∨ pack.additions.HasEntry path entry := by
  rw [apply_eq] at has
  exact has.of_add.imp_left HasEntry.of_remove

theorem allLegal_apply {pack : UpdatePack} (legal : IllegalNames.allLegal dir = true)
    (additionsLegal : IllegalNames.allLegal pack.additions = true) :
    IllegalNames.allLegal (dir.apply pack) = true := by
  rw [IllegalNames.allLegal_iff_hasEntry] at legal additionsLegal ⊢
  intro path entry has
  rcases has.of_apply with kept | added
  · exact legal path entry kept
  · exact additionsLegal path entry added

/-- A difference passes each check of names that its tree passes. A pack whose additions have legal
names keeps the names of a tree legal, whatever its removals are. -/
theorem checks_passed_by_parts_and_updates :
    (∀ (withContents : Bool) (source target : Dir),
        let part := (source.changes withContents target).1
        (IllegalNames.allLegal target = true → IllegalNames.allLegal part = true) ∧
          (CaseClash.isFree target = true → CaseClash.isFree part = true)) ∧
      ∀ (tree : Dir) (pack : UpdatePack), IllegalNames.allLegal tree = true →
        IllegalNames.allLegal pack.additions = true →
        IllegalNames.allLegal (tree.apply pack) = true := by
  constructor
  · intro withContents source target part
    have isMissing : part = source.missing withContents target :=
      congrArg Prod.fst (changes_eq withContents source target)
    rw [isMissing]
    constructor
    · intro legal
      rw [IllegalNames.allLegal_iff] at legal ⊢
      exact legal.missing fun dir part fewer here => here.of_sublist fewer
    · intro clashFree
      rw [CaseClash.isFree_iff] at clashFree ⊢
      exact clashFree.missing fun dir part fewer here => here.of_sublist fewer
  · intro tree pack legal additionsLegal
    exact allLegal_apply legal additionsLegal

theorem checks_passed_by_parts_and_updates_mirror :
    IllegalNames.allLegal newRelease = true ∧ CaseClash.isFree newRelease = true ∧
      IllegalNames.allLegal (wideMirror.changes true newRelease).1 = true ∧
      CaseClash.isFree (wideMirror.changes true newRelease).1 = true ∧
      IllegalNames.allLegal wideMirror = true ∧ IllegalNames.allLegal narrowCopy = true ∧
      IllegalNames.allLegal (wideMirror.apply ⟨mirroredServer, narrowCopy⟩) = true := by
  obtain ⟨parts, updates⟩ := checks_passed_by_parts_and_updates
  have targetLegal : IllegalNames.allLegal newRelease = true := by decide +kernel
  have targetFree : CaseClash.isFree newRelease = true := by decide +kernel
  obtain ⟨partLegal, partFree⟩ := parts true wideMirror newRelease
  have treeLegal : IllegalNames.allLegal wideMirror = true := by decide +kernel
  have additionsLegal : IllegalNames.allLegal narrowCopy = true := by decide +kernel
  exact ⟨targetLegal, targetFree, partLegal targetLegal, partFree targetFree, treeLegal,
    additionsLegal, updates wideMirror ⟨mirroredServer, narrowCopy⟩ treeLegal additionsLegal⟩

end Dir

end AddonExchange
