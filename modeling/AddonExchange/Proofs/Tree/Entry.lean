import AddonExchange.Proofs.Tree.SiblingUnique

namespace AddonExchange

/-- What a directory has under a name. -/
inductive Entry where
  | file (name : Text)
  | dir (name : Text)
deriving DecidableEq

def Entry.name : Entry → Text
  | file name => name
  | dir name => name

namespace Dir

def entries (dir : Dir) : List Entry :=
  (dir.files.map File.name).map .file ++ (dir.dirs.map Dir.name).map .dir

/-- Whether a tree has an entry in a directory that a path names. -/
def HasEntry (tree : Dir) (path : List Text) (entry : Entry) : Prop :=
  ∃ holder, tree.At path holder ∧ entry ∈ holder.entries

/-- Whether a tree has an entry and, if it is a directory, a file at some depth below it. -/
def Stocks (tree : Dir) (path : List Text) : Entry → Prop
  | .file name => tree.HasEntry path (.file name)
  | .dir name => ∃ below file, tree.HasEntry (path ++ name :: below) (.file file)

variable {dir tree holder child target : Dir} {path : List Text} {name : Text} {entry : Entry}

section Entries

theorem file_mem_entries : .file name ∈ dir.entries ↔ ∃ file ∈ dir.files, file.name = name := by
  simp [entries]

theorem dir_mem_entries : .dir name ∈ dir.entries ↔ ∃ child ∈ dir.dirs, child.name = name := by
  simp [entries]

/-- Files and subdirectories have distinct names, each among their own kind, if no entry is
there twice. -/
theorem namesDistinct_iff_nodup_entries : dir.NamesDistinct ↔ dir.entries.Nodup := by
  have apart : List.Disjoint ((dir.files.map File.name).map Entry.file)
      ((dir.dirs.map Dir.name).map Entry.dir) := by
    intro entry isFile isDir
    obtain ⟨file, _, rfl⟩ := List.mem_map.mp isFile
    obtain ⟨child, _, same⟩ := List.mem_map.mp isDir
    cases same
  have fileInjective : Function.Injective Entry.file := fun _ _ same => Entry.file.inj same
  have dirInjective : Function.Injective Entry.dir := fun _ _ same => Entry.dir.inj same
  rw [entries, List.nodup_append', List.nodup_map_iff fileInjective,
    List.nodup_map_iff dirInjective]
  exact ⟨fun distinct => ⟨distinct.files, distinct.dirs, apart⟩,
    fun ⟨distinctFiles, distinctDirs, _⟩ => ⟨distinctFiles, distinctDirs⟩⟩

end Entries

section Paths

theorem At.concat (reached : tree.At path holder) (member : child ∈ holder.dirs) :
    tree.At (path ++ [child.name]) child := by
  induction reached with
  | here => exact .through member .here
  | through outer _ ih => exact .through outer (ih member)

theorem At.append {below : List Text} (reached : tree.At path holder)
    (further : holder.At below target) : tree.At (path ++ below) target := by
  induction reached with
  | here => exact further
  | through member _ ih => exact .through member (ih further)

theorem at_append_iff {below : List Text} :
    tree.At (path ++ below) target ↔ ∃ holder, tree.At path holder ∧ holder.At below target := by
  constructor
  · intro reached
    induction path generalizing tree with
    | nil => exact ⟨tree, .here, reached⟩
    | cons first rest ih =>
      cases reached with
      | through member further =>
        obtain ⟨holder, upper, lower⟩ := ih further
        exact ⟨holder, .through member upper, lower⟩
  · rintro ⟨holder, upper, lower⟩
    exact upper.append lower

theorem hasEntry_dir_iff :
    tree.HasEntry path (.dir name) ↔ ∃ child, tree.At (path ++ [name]) child := by
  constructor
  · rintro ⟨holder, reached, member⟩
    obtain ⟨child, childMember, rfl⟩ := dir_mem_entries.mp member
    exact ⟨child, reached.concat childMember⟩
  · rintro ⟨child, reached⟩
    obtain ⟨holder, upper, lower⟩ := at_append_iff.mp reached
    cases lower with
    | through member further =>
      exact ⟨holder, upper, dir_mem_entries.mpr ⟨_, member, rfl⟩⟩

theorem Stocks.hasEntry (stocked : tree.Stocks path entry) : tree.HasEntry path entry := by
  cases entry with
  | file name => exact stocked
  | dir name =>
    obtain ⟨below, file, holder, reached, _⟩ := stocked
    rw [← List.singleton_append, ← List.append_assoc] at reached
    obtain ⟨child, upper, _⟩ := at_append_iff.mp reached
    exact hasEntry_dir_iff.mpr ⟨child, upper⟩

theorem everywhere_iff_at {property : Dir → Prop} :
    tree.Everywhere property ↔ ∀ path target, tree.At path target → property target := by
  constructor
  · intro everywhere path target reached
    exact everywhere.at reached
  · intro reachedHave
    induction tree with
    | node name files dirs ih =>
      rw [everywhere_iff]
      refine ⟨reachedHave [] _ .here, ?_⟩
      intro child member
      refine ih child member fun path target reached => ?_
      exact reachedHave (child.name :: path) target (.through member reached)

theorem Everywhere.below {property : Dir → Prop} (everywhere : tree.Everywhere property)
    (reached : tree.At path target) : target.Everywhere property := by
  induction reached with
  | here => exact everywhere
  | through member _ ih => exact ih (everywhere.child member)

theorem HasEntry.below {below : List Text} (reached : tree.At path holder)
    (has : holder.HasEntry below entry) : tree.HasEntry (path ++ below) entry := by
  obtain ⟨lower, further, member⟩ := has
  exact ⟨lower, reached.append further, member⟩

theorem hasEntry_nil_iff : tree.HasEntry [] entry ↔ entry ∈ tree.entries := by
  constructor
  · intro has
    obtain ⟨holder, reached, member⟩ := has
    cases reached
    exact member
  · intro member
    exact ⟨tree, .here, member⟩

theorem hasEntry_cons_iff {first : Text} {rest : List Text} :
    tree.HasEntry (first :: rest) entry ↔
      ∃ child ∈ tree.dirs, child.name = first ∧ child.HasEntry rest entry := by
  constructor
  · intro has
    obtain ⟨holder, reached, listed⟩ := has
    cases reached with
    | through member further => exact ⟨_, member, rfl, holder, further, listed⟩
  · intro below
    obtain ⟨child, member, named, holder, further, listed⟩ := below
    subst named
    exact ⟨holder, .through member further, listed⟩

theorem everywhere_entries_iff {property : Entry → Prop} :
    (tree.Everywhere fun dir => ∀ entry ∈ dir.entries, property entry) ↔
      ∀ path entry, tree.HasEntry path entry → property entry := by
  rw [everywhere_iff_at]
  constructor
  · rintro everywhere path entry ⟨holder, reached, member⟩
    exact everywhere path holder reached entry member
  · intro everyEntry path holder reached entry member
    exact everyEntry path entry ⟨holder, reached, member⟩

end Paths

section Unique

theorem hasEntry_file_iff (unique : tree.SiblingUnique) :
    tree.HasEntry path (.file name) ↔ (tree.lookup? path name).isSome := by
  rw [Option.isSome_iff_exists]
  constructor
  · rintro ⟨holder, reached, member⟩
    obtain ⟨file, held, named⟩ := file_mem_entries.mp member
    exact ⟨file, (lookup?_eq_some_iff unique).mpr ⟨holder, reached, held, named⟩⟩
  · rintro ⟨file, found⟩
    obtain ⟨holder, reached, held, named⟩ := at_of_lookup? found
    exact ⟨holder, reached, file_mem_entries.mpr ⟨file, held, named⟩⟩

theorem hasEntry_dir_iff_descend? (unique : tree.SiblingUnique) :
    tree.HasEntry path (.dir name) ↔ (tree.descend? (path ++ [name])).isSome := by
  rw [hasEntry_dir_iff, Option.isSome_iff_exists]
  exact exists_congr fun child => at_iff_descend? unique

end Unique

end Dir

end AddonExchange
