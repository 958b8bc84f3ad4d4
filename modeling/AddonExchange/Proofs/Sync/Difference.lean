import AddonExchange.Proofs.Sync.Containment
import AddonExchange.Proofs.Sync.Frames
import AddonExchange.Proofs.Tree.Entry

namespace AddonExchange.Dir

mutual

/-- The part of a tree that another one lacks: in each directory the files that its
counterpart does not have, and of its subdirectories the parts that are not empty. -/
def missing (withContents : Bool) (source : Dir) : Dir → Dir
  | ⟨name, files, dirs⟩ =>
    ⟨name, missingFiles withContents source ⟨name, files, dirs⟩,
      (missingAll withContents source dirs).filter fun part => !part.isEmpty⟩

def missingAll (withContents : Bool) (source : Dir) : List Dir → List Dir
  | [] => []
  | dir :: rest =>
    (source.counterpart dir.name).missing withContents dir :: missingAll withContents source rest

end

section Recursion

variable (withContents : Bool) (source target : Dir)

private theorem missingAll_eq_map (dirs : List Dir) :
    missingAll withContents source dirs =
      dirs.map fun dir => (source.counterpart dir.name).missing withContents dir := by
  induction dirs with
  | nil => rfl
  | cons dir rest ih => rw [missingAll, ih, List.map_cons]

theorem missing_mk (name : Text) (files : List File) (dirs : List Dir) :
    source.missing withContents ⟨name, files, dirs⟩ =
      ⟨name, missingFiles withContents source ⟨name, files, dirs⟩,
        (dirs.map fun dir =>
          (source.counterpart dir.name).missing withContents dir).filter fun part =>
            !part.isEmpty⟩ := by
  rw [missing, missingAll_eq_map]

@[simp]
theorem name_missing : (source.missing withContents target).name = target.name := by
  cases target
  rfl

theorem files_missing :
    (source.missing withContents target).files = missingFiles withContents source target := by
  cases target
  rfl

theorem dirs_missing :
    (source.missing withContents target).dirs =
      (target.dirs.map fun dir =>
        (source.counterpart dir.name).missing withContents dir).filter fun part =>
          !part.isEmpty := by
  cases target
  rw [missing_mk]

private theorem recursivePart_missing : RecursivePart withContents (missing withContents) := by
  intro source target
  cases target
  exact missing_mk withContents source _ _ _

theorem difference_eq_missing :
    source.difference withContents target = source.missing withContents target :=
  difference_eq_recursivePart (recursivePart_missing withContents) source target

theorem changes_eq :
    source.changes withContents target =
      (source.missing withContents target, !(source.missing withContents target).isEmpty) := by
  rw [changes, difference_eq_missing]

/-- Comparing frame by frame, and dropping empty directories afterwards, gives what recursion on
the second tree does: a directory of its name with the files that the first tree lacks, in their
order and listed in the form that is asked for, and with what is missing from each subdirectory, in
their order and as far as that is not empty. A subdirectory is compared to the first one of its
name, or to an empty one. -/
theorem changes_by_recursion (withContents : Bool) (source target : Dir) :
    source.changes withContents target =
        (source.missing withContents target, !(source.missing withContents target).isEmpty) ∧
      source.missing withContents target =
        ⟨target.name,
          (target.files.filter fun file =>
              !(source.files.map fun known => (known.name, known.hashOf)).contains
                (file.name, file.hashOf)).map fun file =>
            if withContents then ⟨file.name, file.contents, some file.hashOf⟩
            else ⟨file.name, none, none⟩,
          (target.dirs.map fun child =>
            let counterpart := (source.dirs.find? fun known => known.name == child.name).getD
              ⟨child.name, [], []⟩
            counterpart.missing withContents child).filter fun part => !part.isEmpty⟩ := by
  refine ⟨changes_eq withContents source target, ?_⟩
  rw [recursivePart_missing withContents source target]
  rfl

end Recursion

section Lookup

variable {withContents : Bool} {source target : Dir}

theorem name_listed (withContents : Bool) (file : File) :
    (file.listed withContents).name = file.name := by
  cases withContents <;> rfl

private theorem key_mem_fileKeys_iff (unique : source.SiblingUnique) (file : File) :
    file.key ∈ source.fileKeys ↔ source.hashAt? [] file.name = some file.hashOf := by
  rw [hashAt?_eq_some_iff unique]
  constructor
  · intro held
    exact ⟨source, .here, held⟩
  · rintro ⟨holder, reached, held⟩
    cases reached
    exact held

theorem findFile?_missing (sourceUnique : source.SiblingUnique)
    (targetUnique : target.SiblingUnique) (name : Text) :
    (source.missing withContents target).findFile? name =
      (target.findFile? name).bind fun file =>
        if source.hashAt? [] name = some file.hashOf then none
        else some (file.listed withContents) := by
  have sameName : (fun file : File => (file.listed withContents).name == name) =
      fun file => file.name == name := by
    funext file
    rw [name_listed]
  rw [findFile?, files_missing, missingFiles, List.find?_map, Function.comp_def, sameName,
    find?_filter_of_nodup targetUnique.files]
  change Option.map _ ((target.findFile? name).filter _) = _
  cases found : target.findFile? name with
  | none => rfl
  | some file =>
    have known := key_mem_fileKeys_iff sourceUnique file
    rw [findFile?_name found] at known
    by_cases held : source.hashAt? [] name = some file.hashOf
    · simp [Option.filter, known.mpr held, held]
    · simp [Option.filter, known.not.mpr held, held]

theorem findDir?_missing (targetUnique : target.SiblingUnique) (name : Text) :
    (source.missing withContents target).findDir? name =
      ((target.findDir? name).map ((source.counterpart name).missing withContents)).filter
        fun part => !part.isEmpty := by
  have distinct : ((target.dirs.map fun dir =>
      (source.counterpart dir.name).missing withContents dir).map Dir.name).Nodup := by
    simpa [Function.comp_def] using targetUnique.dirs
  rw [findDir?, dirs_missing, find?_filter_of_nodup distinct, List.find?_map]
  simp only [Function.comp_def, name_missing]
  change Option.filter _ (Option.map _ (target.findDir? name)) = _
  cases found : target.findDir? name with
  | none => rfl
  | some child => rw [Option.map_some, Option.map_some, findDir?_name found]

private theorem lookup?_of_isEmpty {dir : Dir} (empty : dir.isEmpty = true) (path : List Text)
    (name : Text) : dir.lookup? path name = none := by
  obtain ⟨own, rfl⟩ := exists_name_of_isEmpty empty
  exact lookup?_empty own path name

private theorem lookup?_filter_nonempty (part : Option Dir) (path : List Text) (name : Text) :
    ((part.filter fun dir => !dir.isEmpty).bind fun dir => dir.lookup? path name) =
      part.bind fun dir => dir.lookup? path name := by
  cases part with
  | none => rfl
  | some dir =>
    cases empty : dir.isEmpty with
    | false => simp [Option.filter, empty]
    | true => simp [Option.filter, empty, lookup?_of_isEmpty empty]

/-- Under each path the difference has the file of the second tree unless the first one has a
file of its hash there. -/
theorem lookup?_missing (sourceUnique : source.SiblingUnique)
    (targetUnique : target.SiblingUnique) (path : List Text) (name : Text) :
    (source.missing withContents target).lookup? path name =
      (target.lookup? path name).bind fun file =>
        if source.hashAt? path name = some file.hashOf then none
        else some (file.listed withContents) := by
  induction path generalizing source target with
  | nil => exact findFile?_missing sourceUnique targetUnique name
  | cons first rest ih =>
    rw [lookup?_cons, lookup?_cons, findDir?_missing targetUnique, lookup?_filter_nonempty]
    cases found : target.findDir? first with
    | none => rfl
    | some child =>
      have childUnique := targetUnique.child (findDir?_mem found)
      rw [Option.map_some, Option.bind_some, Option.bind_some,
        ih (sourceUnique.counterpart first) childUnique, hashAt?_counterpart]

end Lookup

section Shape

variable {withContents : Bool} {source target : Dir}

theorem mem_dirs_missing {part : Dir} (member : part ∈ (source.missing withContents target).dirs) :
    ∃ child ∈ target.dirs, (source.counterpart child.name).missing withContents child = part := by
  rw [dirs_missing] at member
  exact List.mem_map.mp (List.mem_filter.mp member).1

/-- In no directory has a difference an entry that is not from the tree it is a part of, or one
more often or in another order. -/
theorem entries_missing_sublist (withContents : Bool) (source target : Dir) :
    (source.missing withContents target).entries.Sublist target.entries := by
  have filesKept : ((source.missing withContents target).files.map File.name).Sublist
      (target.files.map File.name) := by
    have sameNames : File.name ∘ File.listed withContents = File.name := by
      funext file
      exact name_listed withContents file
    rw [files_missing, missingFiles, List.map_map, sameNames]
    exact List.filter_sublist.map File.name
  have dirsKept : ((source.missing withContents target).dirs.map Dir.name).Sublist
      (target.dirs.map Dir.name) := by
    have sameNames : (target.dirs.map fun dir =>
        (source.counterpart dir.name).missing withContents dir).map Dir.name =
        target.dirs.map Dir.name := by
      simp [Function.comp_def]
    rw [dirs_missing, ← sameNames]
    exact List.filter_sublist.map Dir.name
  exact (filesKept.map Entry.file).append (dirsKept.map Entry.dir)

/-- A property that directories keep when they lose entries holds of every part of a tree if it
holds of the tree. -/
theorem Everywhere.missing {property : Dir → Prop} (everywhere : target.Everywhere property)
    (kept : ∀ dir part : Dir, part.entries.Sublist dir.entries → property dir → property part) :
    (source.missing withContents target).Everywhere property := by
  induction target generalizing source with
  | node name files dirs ih =>
    rw [everywhere_iff]
    constructor
    · exact kept _ _ (entries_missing_sublist withContents source _) everywhere.root
    · intro part member
      obtain ⟨child, childMember, rfl⟩ := mem_dirs_missing member
      exact ih child childMember (everywhere.child childMember)

theorem SiblingUnique.missing (unique : target.SiblingUnique) :
    (source.missing withContents target).SiblingUnique := by
  refine Everywhere.missing unique ?_
  intro dir part fewer distinct
  rw [namesDistinct_iff_nodup_entries] at distinct ⊢
  exact distinct.sublist fewer

theorem everywhere_listed_missing :
    (source.missing withContents target).Everywhere fun dir =>
      ∀ file ∈ dir.files, ∃ original : File, original.listed withContents = file := by
  induction target generalizing source with
  | node name files dirs ih =>
    rw [everywhere_iff]
    constructor
    · intro file member
      rw [files_missing] at member
      obtain ⟨original, _, listed⟩ := List.mem_map.mp member
      exact ⟨original, listed⟩
    · intro part member
      obtain ⟨child, childMember, rfl⟩ := mem_dirs_missing member
      exact ih child childMember

/-- Nothing is missing from a tree that contains the other. -/
theorem isEmpty_missing_iff :
    (source.missing withContents target).isEmpty = true ↔ source.contains target = true := by
  induction target generalizing source with
  | node name files dirs ih =>
    rw [contains_iff, isEmpty, Bool.and_eq_true, List.isEmpty_iff, List.isEmpty_iff]
    refine and_congr ?_ ?_
    · rw [files_missing, missingFiles, List.map_eq_nil_iff, List.filter_eq_nil_iff]
      simp
    · rw [dirs_missing, List.filter_eq_nil_iff, List.forall_mem_map]
      refine forall₂_congr fun child member => ?_
      have part : ((source.counterpart child.name).missing withContents child).isEmpty = true ↔
          (source.counterpart child.name).contains child = true := ih child member
      rw [← part]
      simp

theorem changed_eq_not_contains :
    (source.changes withContents target).2 = !source.contains target := by
  rw [changes_eq, Bool.eq_iff_iff, Bool.not_eq_true', Bool.not_eq_true', ← Bool.not_eq_true,
    ← Bool.not_eq_true, isEmpty_missing_iff]

end Shape

end AddonExchange.Dir
