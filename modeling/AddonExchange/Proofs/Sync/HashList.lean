import AddonExchange.Proofs.Sync.Difference
import AddonExchange.Proofs.Sync.HashListing
import AddonExchange.Sync.UpdatePack

namespace AddonExchange

namespace File

private theorem key_hashEntry (file : File) : file.hashEntry.key = file.key := by
  rw [key, key, hashOf_hashEntry]
  rfl

end File

namespace Dir

variable {change : File → File}

private theorem counterpart_mapFiles (change : File → File) (dir : Dir) (name : Text) :
    (dir.mapFiles change).counterpart name = (dir.counterpart name).mapFiles change := by
  cases found : dir.findDir? name <;> simp [counterpart, findDir?_mapFiles, found, mapFiles_mk]

section KeepsKeys

variable (keepsKey : ∀ file, (change file).key = file.key)

include keepsKey

private theorem fileKeys_mapFiles (dir : Dir) : (dir.mapFiles change).fileKeys = dir.fileKeys := by
  simp [fileKeys, Function.comp_def, keepsKey]

theorem contains_mapFiles_left (source target : Dir) :
    (source.mapFiles change).contains target = source.contains target := by
  induction target generalizing source with
  | node name files dirs ih =>
    rw [Bool.eq_iff_iff, contains_iff, contains_iff, fileKeys_mapFiles keepsKey]
    refine and_congr Iff.rfl (forall₂_congr fun child member => ?_)
    rw [counterpart_mapFiles, ih child member]

theorem contains_mapFiles_right (source target : Dir) :
    source.contains (target.mapFiles change) = source.contains target := by
  induction target generalizing source with
  | node name files dirs ih =>
    rw [Bool.eq_iff_iff, contains_iff, contains_iff, mapFiles_files, mapFiles_dirs,
      List.forall_mem_map, List.forall_mem_map]
    refine and_congr (forall₂_congr fun file _ => ?_) (forall₂_congr fun child member => ?_)
    · rw [keepsKey]
    · rw [mapFiles_name, ih child member]

private theorem missing_mapFiles_left (withContents : Bool) (source target : Dir) :
    (source.mapFiles change).missing withContents target =
      source.missing withContents target := by
  induction target generalizing source with
  | node name files dirs ih =>
    have sameParts : dirs.map (fun dir =>
        ((source.mapFiles change).counterpart dir.name).missing withContents dir) =
        dirs.map fun dir => (source.counterpart dir.name).missing withContents dir := by
      apply List.map_congr_left
      intro child member
      rw [counterpart_mapFiles, ih child member]
    rw [missing_mk, missing_mk, sameParts, missingFiles, missingFiles,
      fileKeys_mapFiles keepsKey]

/-- A list of names alone does not show which of two trees with the same keys it is from. -/
theorem missing_false_mapFiles_right (source target : Dir) :
    source.missing false (target.mapFiles change) = source.missing false target := by
  have keepsName (file : File) : (change file).listed false = file.listed false := by
    have sameName : (change file).name = file.name := congrArg Prod.fst (keepsKey file)
    rw [File.listed, File.listed, sameName]
    rfl
  induction target generalizing source with
  | node name files dirs ih =>
    have sameParts : dirs.map (fun dir =>
        (source.counterpart dir.name).missing false (dir.mapFiles change)) =
        dirs.map fun dir => (source.counterpart dir.name).missing false dir := by
      apply List.map_congr_left
      intro child member
      exact ih child member (source.counterpart child.name)
    rw [mapFiles_mk, missing_mk, missing_mk, List.map_map]
    simp [missingFiles, Function.comp_def, List.filter_map, keepsKey, keepsName, sameParts]

end KeepsKeys

theorem contains_hashList (workers : Option Int) (source target : Dir) :
    (source.hashList workers).contains target = source.contains target := by
  rw [hashList_eq_mapFiles, contains_mapFiles_left File.key_hashEntry]

theorem contains_hashList_right (workers : Option Int) (source target : Dir) :
    source.contains (target.hashList workers) = source.contains target := by
  rw [hashList_eq_mapFiles, contains_mapFiles_right File.key_hashEntry]

theorem changes_hashList (workers : Option Int) (withContents : Bool) (source target : Dir) :
    (source.hashList workers).changes withContents target =
      source.changes withContents target := by
  rw [changes_eq, changes_eq, hashList_eq_mapFiles, missing_mapFiles_left File.key_hashEntry]

theorem between_hashList (workers : Option Int) (source target : Dir) :
    UpdatePack.between (source.hashList workers) target = UpdatePack.between source target := by
  rw [UpdatePack.between, UpdatePack.between, hashList_eq_mapFiles, difference_eq_missing,
    difference_eq_missing, difference_eq_missing, difference_eq_missing,
    missing_mapFiles_left File.key_hashEntry, missing_false_mapFiles_right File.key_hashEntry]

/-- A hash list stands for its tree: on either side of a containment, in place of the tree that
a difference starts from, and in place of the client that an update pack is made for. -/
theorem hashList_stands_for_tree (workers : Option Int) (source target : Dir) :
    (source.hashList workers).contains target = source.contains target ∧
      source.contains (target.hashList workers) = source.contains target ∧
      (∀ withContents, (source.hashList workers).changes withContents target =
        source.changes withContents target) ∧
      UpdatePack.between (source.hashList workers) target = UpdatePack.between source target :=
  ⟨contains_hashList workers source target, contains_hashList_right workers source target,
    fun withContents => changes_hashList workers withContents source target,
    between_hashList workers source target⟩

end Dir

end AddonExchange
