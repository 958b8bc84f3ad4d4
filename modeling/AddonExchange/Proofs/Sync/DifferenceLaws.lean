import AddonExchange.Proofs.Sync.Convergence
import AddonExchange.Proofs.Tree.MapFiles

namespace AddonExchange

namespace File

/-- A file of which nothing but the name is left. -/
def nameOnly (file : File) : File := ⟨file.name, none, none⟩

private theorem nameOnly_listed (withContents : Bool) (file : File) :
    (file.listed withContents).nameOnly = file.nameOnly := by
  cases withContents <;> rfl

private theorem key_listed (file : File) : (file.listed true).key = file.key := by
  rw [key, key, hashOf_listed]
  rfl

theorem listed_listed (file : File) : (file.listed true).listed true = file.listed true := by
  have sameHash := file.hashOf_listed
  simp only [listed, if_true] at sameHash ⊢
  rw [sameHash]

end File

namespace Dir

/-- Names of missing files are listed where the files themselves would be. -/
theorem missingFiles_false (source target : Dir) :
    missingFiles false source target =
      (missingFiles true source target).map File.nameOnly := by
  have sameName : File.nameOnly ∘ File.listed true = File.listed false := by
    funext file
    exact file.nameOnly_listed true
  rw [missingFiles, missingFiles, List.map_map, sameName]

theorem missing_false (source target : Dir) :
    source.missing false target = (source.missing true target).mapFiles File.nameOnly := by
  induction target generalizing source with
  | node name files dirs ih =>
    have sameParts : dirs.map (fun dir => (source.counterpart dir.name).missing false dir) =
        (dirs.map fun dir => (source.counterpart dir.name).missing true dir).map
          (mapFiles File.nameOnly) := by
      rw [List.map_map]
      exact List.map_congr_left fun child member => ih child member _
    -- A part is kept in one list exactly if it is kept in the other.
    have sameKept : (fun part : Dir => !part.isEmpty) ∘ mapFiles File.nameOnly =
        fun part => !part.isEmpty := by
      funext part
      exact congrArg not (isEmpty_mapFiles File.nameOnly part)
    rw [missing_mk, missing_mk, mapFiles_mk, missingFiles_false, sameParts, List.filter_map,
      sameKept]

theorem missingFiles_listed (source : Dir) (name : Text) (dirs : List Dir) (target : Dir) :
    missingFiles true source ⟨name, missingFiles true source target, dirs⟩ =
      missingFiles true source target := by
  have sameKey : (fun file : File => !source.fileKeys.contains file.key) ∘ File.listed true =
      fun file => !source.fileKeys.contains file.key := by
    funext file
    exact congrArg (fun key => !source.fileKeys.contains key) file.key_listed
  have sameListing : File.listed true ∘ File.listed true = File.listed true := by
    funext file
    exact file.listed_listed
  simp only [missingFiles]
  rw [List.filter_map, sameKey, List.filter_filter, List.map_map, sameListing]
  simp only [Bool.and_self]

theorem missing_missing (source target : Dir) :
    source.missing true (source.missing true target) = source.missing true target := by
  induction target generalizing source with
  | node name files dirs ih =>
    have sameParts :
        ((dirs.map fun dir => (source.counterpart dir.name).missing true dir).filter
            fun part => !part.isEmpty).map
          (fun part => (source.counterpart part.name).missing true part) =
        (dirs.map fun dir => (source.counterpart dir.name).missing true dir).filter
          fun part => !part.isEmpty := by
      refine (List.map_congr_left fun part kept => ?_).trans (List.map_id' _)
      obtain ⟨child, member, rfl⟩ := List.mem_map.mp (List.mem_filter.mp kept).1
      rw [name_missing]
      exact ih child member (source.counterpart child.name)
    rw [missing_mk, missing_mk, missingFiles_listed, sameParts, List.filter_filter]
    simp only [Bool.and_self]

/-- A difference by names alone has the shape and the answer of the one with contents, so removals
are the names of the additions of the opposite update. Comparing once more with what a comparison
listed gives the same list and answer again, in either form. -/
theorem changes_by_name_and_again (source target : Dir) :
    source.changes false target =
        ((source.changes true target).1.mapFiles File.nameOnly, (source.changes true target).2) ∧
      (UpdatePack.between source target).removals =
        (UpdatePack.between target source).additions.mapFiles File.nameOnly ∧
      ∀ withContents, source.changes withContents (source.changes true target).1 =
        source.changes withContents target := by
  have again (withContents : Bool) :
      source.missing withContents (source.missing true target) =
        source.missing withContents target := by
    cases withContents with
    | true => exact missing_missing source target
    | false => rw [missing_false, missing_missing, ← missing_false]
  refine ⟨?_, ?_, ?_⟩
  · rw [changes_eq, changes_eq, missing_false, isEmpty_mapFiles]
  · rw [UpdatePack.removals_between, UpdatePack.additions_between, missing_false]
  · intro withContents
    rw [changes_eq, changes_eq, changes_eq, again]

end Dir

end AddonExchange
