import AddonExchange.Proofs.Tree.RoundTrip
import AddonExchange.Proofs.Value.Same

namespace AddonExchange

namespace Value

/-- A value that has no more than what is written of a file: contents as bytes, in escaped form
if that is asked for, and a hash that is not empty. -/
structure CanonicalFile (escaped : Bool) (entry : Value) : Prop where
  tags : ∀ key, (entry.get? key).isSome →
    key ∈ [Text.ofString "name", Text.ofString "contents", Text.ofString "hash"]
  contents : ∀ value, entry.get? "contents" = some value →
    ∃ bytes, value = .bytes bytes ∧ (escaped = true → ∃ plain, bytes = Escape.encode plain)
  hash : ∀ value, entry.get? "hash" = some value → ∃ hash, value = .text hash ∧ hash ≠ []

/-- A value that has no more than what is written of a tree: a name, files and subdirectories,
these under tags that are not there without them. -/
inductive CanonicalDir (escaped : Bool) : Value → Prop where
  | dir {entry : Value} {files dirs : List Value}
      (tags : ∀ key, (entry.get? key).isSome →
        key ∈ [Text.ofString "name", Text.ofString "file", Text.ofString "dir"])
      (fileList : ListsSome (entry.get? "file") files)
      (eachFile : ∀ file ∈ files, file.CanonicalFile escaped)
      (dirList : ListsSome (entry.get? "dir") dirs)
      (eachDir : ∀ dir ∈ dirs, CanonicalDir escaped dir) :
      CanonicalDir escaped entry

end Value

section Written

variable (escaped : Bool)

private theorem File.canonicalFile_toValue (file : File) :
    (file.toValue escaped).CanonicalFile escaped where
  tags _ held := file.mem_tags_of_get?_toValue escaped held
  contents value held := by
    rw [get?_contents_toValue] at held
    obtain ⟨bytes, _, rfl⟩ := Option.map_eq_some_iff.mp held
    refine ⟨_, rfl, ?_⟩
    intro inEscapedForm
    exact ⟨bytes, if_pos inEscapedForm⟩
  hash value held := by
    rw [get?_hash_toValue] at held
    obtain ⟨hash, carried, rfl⟩ := Option.map_eq_some_iff.mp held
    exact ⟨hash, rfl, file.ne_nil_of_mem_dropEmptyHash carried⟩

private theorem Dir.canonicalDir_toValue (dir : Dir) :
    (dir.toValue escaped).CanonicalDir escaped := by
  induction dir with
  | node name files dirs ih =>
    refine .dir ?_ (listsSome_file_toValue escaped _) ?_ (listsSome_dir_toValue escaped _) ?_
    · intro key held
      exact mem_tags_of_get?_toValue escaped _ held
    · rw [List.forall_mem_map]
      exact fun file _ => file.canonicalFile_toValue escaped
    · rw [List.forall_mem_map]
      exact ih

end Written

section Same

variable {escaped : Bool} {first second : Value}

private theorem ListsSome.of_rel {former latter : Option Value} {entries : List Value}
    (lists : ListsSome former entries) (related : Option.Rel Value.Same former latter) :
    ∃ others, ListsSome latter others ∧ List.Forall₂ Value.Same entries others := by
  cases lists with
  | absent =>
    cases related
    exact ⟨[], .absent, .nil⟩
  | list nonempty =>
    cases related with
    | some same =>
      obtain ⟨others, rfl, each⟩ := same.exists_list
      refine ⟨others, .list ?_, each⟩
      rintro rfl
      cases each
      exact nonempty rfl

private theorem Value.mem_tags_of_same {tags : List Text} (same : first.Same second)
    (among : ∀ key, (first.get? key).isSome → key ∈ tags) (key : Text)
    (held : (second.get? key).isSome) : key ∈ tags := by
  obtain ⟨value, found⟩ := Option.isSome_iff_exists.mp held
  obtain ⟨former, foundFormer, _⟩ := same.exists_of_get? found
  exact among key (Option.isSome_iff_exists.mpr ⟨former, foundFormer⟩)

theorem Value.CanonicalFile.of_same (canonical : first.CanonicalFile escaped)
    (same : first.Same second) : second.CanonicalFile escaped where
  tags := mem_tags_of_same same canonical.tags
  contents value held := by
    obtain ⟨former, found, sameValue⟩ := same.exists_of_get? held
    obtain ⟨bytes, rfl, inForm⟩ := canonical.contents former found
    exact ⟨bytes, sameValue.eq_bytes, inForm⟩
  hash value held := by
    obtain ⟨former, found, sameValue⟩ := same.exists_of_get? held
    obtain ⟨hash, rfl, nonempty⟩ := canonical.hash former found
    exact ⟨hash, sameValue.eq_text, nonempty⟩

private theorem forall_mem_of_forall₂ {α β : Type} {related : α → β → Prop} {property : β → Prop}
    {items : List α} {others : List β} (each : List.Forall₂ related items others)
    (carries : ∀ item ∈ items, ∀ other, related item other → property other) :
    ∀ other ∈ others, property other := by
  induction each with
  | nil => simp
  | cons first _ ih =>
    obtain ⟨carriesFirst, carriesRest⟩ := List.forall_mem_cons.mp carries
    exact List.forall_mem_cons.mpr ⟨carriesFirst _ first, ih carriesRest⟩

/-- Whether a value is canonical does not depend on the order of its entries. -/
theorem Value.CanonicalDir.of_same (canonical : first.CanonicalDir escaped)
    (same : first.Same second) : second.CanonicalDir escaped := by
  induction canonical generalizing second with
  | dir tags fileList eachFile dirList _ ih =>
    obtain ⟨files, filesListed, sameFiles⟩ := fileList.of_rel (same.get? "file")
    obtain ⟨dirs, dirsListed, sameDirs⟩ := dirList.of_rel (same.get? "dir")
    refine .dir (mem_tags_of_same same tags) filesListed ?_ dirsListed ?_
    · exact forall_mem_of_forall₂ sameFiles fun file member _ sameFile =>
        (eachFile file member).of_same sameFile
    · exact forall_mem_of_forall₂ sameDirs fun dir member _ sameDir => ih dir member sameDir

end Same

section Described

variable {escaped : Bool} {entry first second : Value}

theorem ListsEntries.unique {held : Option Value} {entries others : List Value}
    (lists : ListsEntries held entries) (listsToo : ListsEntries held others) :
    entries = others := by
  cases lists <;> cases listsToo <;> rfl

private theorem ListsSome.rel {former latter : Option Value} {entries others : List Value}
    (lists : ListsSome former entries) (listsToo : ListsSome latter others)
    (same : List.Forall₂ Value.Same entries others) : Option.Rel Value.Same former latter := by
  cases lists with
  | absent =>
    cases same
    cases listsToo with
    | absent => exact .none
    | list nonempty => exact absurd rfl nonempty
  | list nonempty =>
    cases listsToo with
    | absent =>
      cases same
      exact absurd rfl nonempty
    | list _ => exact .some (.list same)

private theorem Value.rel_get?_of_not_mem {tags : List Text} {key : Text}
    (among : (first.get? key).isSome → key ∈ tags)
    (amongToo : (second.get? key).isSome → key ∈ tags) (other : key ∉ tags) :
    Option.Rel Value.Same (first.get? key) (second.get? key) := by
  rw [Option.not_isSome_iff_eq_none.mp (mt among other),
    Option.not_isSome_iff_eq_none.mp (mt amongToo other)]
  exact .none

private theorem forall₂_same_map {α : Type} {describes : Value → α → Prop} {write : α → Value}
    {entries : List Value} {items : List α} (each : List.Forall₂ describes entries items)
    (written : ∀ entry ∈ entries, ∀ item, describes entry item → (write item).Same entry) :
    List.Forall₂ Value.Same (items.map write) entries := by
  rw [List.forall₂_map_left_iff]
  apply List.Forall₂.flip
  have eachWritten := (List.forall₂_and_left entries items).mpr ⟨written, each⟩
  exact eachWritten.imp fun _ item ⟨writtenEntry, described⟩ => writtenEntry item described

private theorem File.rel_contents {file : File} (canonical : entry.CanonicalFile escaped)
    (describes : entry.DescribesFile escaped file) :
    Option.Rel Value.Same ((file.toValue escaped).get? "contents") (entry.get? "contents") := by
  obtain ⟨stored, stores, same⟩ := describes.contents
  rw [get?_contents_toValue, same]
  cases held : entry.get? "contents" with
  | none =>
    rw [held] at stores
    cases stores
    cases escaped <;> exact .none
  | some value =>
    obtain ⟨bytes, rfl, inForm⟩ := canonical.contents value held
    rw [held] at stores
    cases stores
    cases escaped with
    | false => exact .some (.refl _)
    | true =>
      -- Encoding what was decoded gives back the bytes only if they are encoded from some.
      obtain ⟨plain, rfl⟩ := inForm rfl
      rw [if_pos rfl, Option.map_some, Option.map_some, Escape.decode_encode, if_pos rfl]
      exact Value.Same.rel_refl _

private theorem File.rel_hash {file : File} (canonical : entry.CanonicalFile escaped)
    (describes : entry.DescribesFile escaped file) :
    Option.Rel Value.Same ((file.toValue escaped).get? "hash") (entry.get? "hash") := by
  have stores := describes.hash
  rw [get?_hash_toValue]
  change Option.Rel _ ((file.hash.filter _).map _) _
  generalize file.hash = carried at stores
  cases held : entry.get? "hash" with
  | none =>
    rw [held] at stores
    cases stores
    exact .none
  | some value =>
    obtain ⟨hash, rfl, nonempty⟩ := canonical.hash value held
    rw [held] at stores
    cases stores with
    | empty => exact absurd rfl nonempty
    | text _ =>
      rw [Option.filter_some_pos (by simpa using nonempty), Option.map_some]
      exact Value.Same.rel_refl _

theorem File.same_toValue {file : File} (canonical : entry.CanonicalFile escaped)
    (describes : entry.DescribesFile escaped file) : (file.toValue escaped).Same entry := by
  have named := file.get?_name_toValue escaped
  refine .of_get? (Option.isSome_of_mem named) (Option.isSome_of_mem describes.named) fun key => ?_
  by_cases tag : key ∈ [Text.ofString "name", Text.ofString "contents", Text.ofString "hash"]
  · simp only [List.mem_cons, List.not_mem_nil, or_false] at tag
    rcases tag with rfl | rfl | rfl
    · rw [named, describes.named]
      exact Value.Same.rel_refl _
    · exact rel_contents canonical describes
    · exact rel_hash canonical describes
  · exact Value.rel_get?_of_not_mem (file.mem_tags_of_get?_toValue escaped) (canonical.tags key) tag

theorem Dir.same_toValue {tree : Dir} (canonical : entry.CanonicalDir escaped)
    (describes : entry.DescribesDir escaped tree) : (tree.toValue escaped).Same entry := by
  induction canonical generalizing tree with
  | @dir entry fileEntries dirEntries tags fileList eachFile dirList _ ih =>
    obtain ⟨named, filesListed, describeFiles, dirsListed, describeDirs⟩ := describes
    obtain rfl := fileList.listsEntries.unique filesListed
    obtain rfl := dirList.listsEntries.unique dirsListed
    rename_i name files dirs
    have nameWritten := get?_name_toValue escaped ⟨name, files, dirs⟩
    refine .of_get? (Option.isSome_of_mem nameWritten) (Option.isSome_of_mem named) fun key => ?_
    by_cases tag : key ∈ [Text.ofString "name", Text.ofString "file", Text.ofString "dir"]
    · simp only [List.mem_cons, List.not_mem_nil, or_false] at tag
      rcases tag with rfl | rfl | rfl
      · rw [nameWritten, named]
        exact Value.Same.rel_refl _
      · refine (listsSome_file_toValue escaped _).rel fileList (forall₂_same_map describeFiles ?_)
        exact fun file member _ described => File.same_toValue (eachFile file member) described
      · refine (listsSome_dir_toValue escaped _).rel dirList (forall₂_same_map describeDirs ?_)
        exact fun dir member _ described => ih dir member described
    · exact Value.rel_get?_of_not_mem (mem_tags_of_get?_toValue escaped _) (tags key) tag

/-- A value that is read as a tree is the same as what is written of the tree exactly if it is
canonical. -/
theorem Dir.same_toValue_iff_canonicalDir {options : ReadOptions} {value : Value} {tree : Dir}
    (read : Dir.ofValue options value = .ok tree) :
    (tree.toValue options.escaped).Same value ↔ value.CanonicalDir options.escaped := by
  constructor
  · intro same
    exact (tree.canonicalDir_toValue options.escaped).of_same same
  · intro canonical
    exact same_toValue canonical (ofValue_eq_ok_iff.mp read).1

/-- A tree as a host may hand it over, its entries in another order than they are written in. -/
def reorderedHostTree : Value :=
  .map [("dir", .list [.map [("file", .list [.map [("contents", .bytes [0x61, 0x01, 0x02]),
    ("name", .text "first.map")]]), ("name", .text "maps")]]), ("name", .text "addon")]

theorem Dir.same_toValue_iff_canonicalDir_reorderedHostTree :
    let options : ReadOptions := ⟨true, 1⟩
    let tree : Dir := ⟨"addon", [], [⟨"maps", [⟨"first.map", some [0x61, 0x01], none⟩], []⟩]⟩
    Dir.ofValue options reorderedHostTree = .ok tree ∧
      ((tree.toValue true).Same reorderedHostTree ↔ reorderedHostTree.CanonicalDir true) := by
  intro options tree
  have read : Dir.ofValue options reorderedHostTree = .ok tree := by
    rw [ofValue_eq_ok_iff]
    refine ⟨.dir rfl .absent .nil (.list _) (.cons ?_ .nil), by decide⟩
    refine .dir rfl (.list _) (.cons ?_ .nil) .absent .nil
    exact ⟨rfl, ⟨_, .bytes _, rfl⟩, .absent⟩
  exact ⟨read, same_toValue_iff_canonicalDir read⟩

end Described

end AddonExchange
