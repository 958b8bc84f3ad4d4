import AddonExchange.Proofs.Bytes.Escape
import AddonExchange.Proofs.Text.Basic
import AddonExchange.Proofs.Tree.Reading
import AddonExchange.Proofs.Tree.Writing

namespace AddonExchange

/-- A file without the empty hash that it may carry. -/
def File.dropEmptyHash (file : File) : File :=
  { file with hash := file.hash.filter fun hash => !hash.isEmpty }

section Files

variable (escaped : Bool) (file : File)

theorem File.get?_name_toValue :
    (file.toValue escaped).get? "name" = some (.text file.name) := by
  simp [File.toValue, Value.get?]

theorem File.get?_contents_toValue :
    (file.toValue escaped).get? "contents" =
      file.contents.map fun bytes => .bytes (if escaped then Escape.encode bytes else bytes) := by
  obtain ⟨name, contents, hash⟩ := file
  rcases contents with _ | bytes <;> rcases hash with _ | _ | ⟨first, rest⟩ <;>
    simp [File.toValue, Value.get?, List.lookup_cons]

theorem File.get?_hash_toValue :
    (file.toValue escaped).get? "hash" = file.dropEmptyHash.hash.map .text := by
  obtain ⟨name, contents, hash⟩ := file
  rcases contents with _ | bytes <;> rcases hash with _ | _ | ⟨first, rest⟩ <;>
    simp [File.toValue, Value.get?, List.lookup_cons, File.dropEmptyHash, Option.filter]

theorem File.ne_nil_of_mem_dropEmptyHash {hash : Text}
    (held : file.dropEmptyHash.hash = some hash) : hash ≠ [] := by
  have nonempty := (Option.filter_eq_some_iff.mp held).2
  simpa using nonempty

theorem File.mem_tags_of_get?_toValue {key : Text}
    (held : ((file.toValue escaped).get? key).isSome) :
    key ∈ [Text.ofString "name", Text.ofString "contents", Text.ofString "hash"] := by
  by_contra other
  simp only [List.mem_cons, List.not_mem_nil, or_false, not_or] at other
  obtain ⟨name, contents, hash⟩ := file
  rcases contents with _ | bytes <;> rcases hash with _ | _ | ⟨first, rest⟩ <;>
    simp [File.toValue, Value.get?, List.lookup_cons, beq_eq_false_iff_ne.mpr, other] at held

private theorem File.describesFile_toValue :
    (file.toValue escaped).DescribesFile escaped file.dropEmptyHash where
  named := file.get?_name_toValue escaped
  contents := by
    refine ⟨file.contents.map fun bytes => if escaped then Escape.encode bytes else bytes, ?_, ?_⟩
    · rw [get?_contents_toValue]
      cases file.contents with
      | none => exact .absent
      | some bytes => exact .bytes _
    · cases escaped with
      | false => simp [dropEmptyHash]
      | true => simp [dropEmptyHash, Function.comp_def, Escape.decode_encode]
  hash := by
    rw [get?_hash_toValue]
    cases held : file.dropEmptyHash.hash with
    | none => exact .absent
    | some hash => exact .text (file.ne_nil_of_mem_dropEmptyHash held)

end Files

section Dirs

variable (escaped : Bool) (dir : Dir)

theorem Dir.get?_name_toValue : (dir.toValue escaped).get? "name" = some (.text dir.name) := by
  rw [toValue_eq]
  simp [valueWith, Value.get?]

theorem Dir.listsSome_file_toValue :
    ListsSome ((dir.toValue escaped).get? "file") (dir.files.map (File.toValue escaped)) := by
  rw [toValue_eq, valueWith]
  cases dir.files <;> cases dir.dirs <;>
    simp [childEntry, Value.get?, List.lookup_cons, ListsSome.absent, ListsSome.list]

theorem Dir.listsSome_dir_toValue :
    ListsSome ((dir.toValue escaped).get? "dir") (dir.dirs.map (Dir.toValue escaped)) := by
  rw [toValue_eq, valueWith]
  cases dir.files <;> cases dir.dirs <;>
    simp [childEntry, Value.get?, List.lookup_cons, ListsSome.absent, ListsSome.list]

theorem Dir.mem_tags_of_get?_toValue {key : Text}
    (held : ((dir.toValue escaped).get? key).isSome) :
    key ∈ [Text.ofString "name", Text.ofString "file", Text.ofString "dir"] := by
  by_contra other
  simp only [List.mem_cons, List.not_mem_nil, or_false, not_or] at other
  rw [toValue_eq, valueWith] at held
  revert held
  cases dir.files <;> cases dir.dirs <;>
    simp [childEntry, Value.get?, List.lookup_cons, beq_eq_false_iff_ne.mpr, other]

private theorem Dir.describesDir_toValue :
    (dir.toValue escaped).DescribesDir escaped (dir.mapFiles File.dropEmptyHash) := by
  induction dir with
  | node name files dirs ih =>
    rw [mapFiles_mk]
    refine .dir (get?_name_toValue escaped _) (listsSome_file_toValue escaped _).listsEntries ?_
      (listsSome_dir_toValue escaped _).listsEntries ?_
    · rw [List.forall₂_map_left_iff, List.forall₂_map_right_iff, List.forall₂_same]
      exact fun file _ => file.describesFile_toValue escaped
    · rw [List.forall₂_map_left_iff, List.forall₂_map_right_iff, List.forall₂_same]
      exact ih

end Dirs

/-- A tree that is written and read under a depth limit that it keeps comes back with no more
change than that empty hashes are absent. -/
theorem Dir.ofValue_toValue {options : ReadOptions} (tree : Dir)
    (within : (tree.depth : Int) ≤ options.maxDepth) :
    Dir.ofValue options (tree.toValue options.escaped) =
      .ok (tree.mapFiles File.dropEmptyHash) := by
  rw [ofValue_eq_ok_iff, depth_mapFiles]
  exact ⟨tree.describesDir_toValue options.escaped, Int.le_trans within (Int.le_max_left _ _)⟩

/-- A written tree is read back exactly under the depth limits that it keeps; a tree without
subdirectories keeps every limit. -/
theorem Dir.ofValue_toValue_eq_ok_iff (escaped : Bool) (maxDepth : Int) (tree : Dir) :
    Dir.ofValue ⟨escaped, maxDepth⟩ (tree.toValue escaped) =
        .ok (tree.mapFiles File.dropEmptyHash) ↔
      (tree.depth : Int) ≤ max maxDepth 0 := by
  rw [ofValue_eq_ok_iff, depth_mapFiles]
  exact and_iff_right (tree.describesDir_toValue escaped)

end AddonExchange
