import AddonExchange.Proofs.Tree.SiblingUnique
import AddonExchange.Sync.Containment
import Mathlib.Data.Set.Basic

/-! What containment means in terms of paths. A tree contains another one if descending in it
reaches, for every file of the other, a directory that holds a file of the same name and
hash; for trees with distinct siblings this is inclusion of what they hold. -/

namespace AddonExchange.Dir

/-- The hash of the file that a path and a name lead to. -/
def hashAt? (tree : Dir) (path : List Text) (name : Text) : Option Text :=
  (tree.lookup? path name).map File.hashOf

/-- The files of a tree, each by the path of its directory, its name and its hash. -/
def identities (tree : Dir) : Set (List Text × Text × Text) :=
  { identity | ∃ holder, tree.At identity.1 holder ∧ identity.2 ∈ holder.fileKeys }

section Counterpart

variable {dir child : Dir} {name : Text}

theorem counterpart_of_found (found : dir.findDir? name = some child) :
    dir.counterpart name = child := by
  rw [counterpart, found, Option.getD_some]

theorem counterpart_of_absent (absent : dir.findDir? name = none) :
    dir.counterpart name = ⟨name, [], []⟩ := by
  rw [counterpart, absent, Option.getD_none]

theorem SiblingUnique.counterpart (unique : dir.SiblingUnique) (name : Text) :
    (dir.counterpart name).SiblingUnique := by
  cases found : dir.findDir? name with
  | none =>
    rw [counterpart_of_absent found]
    exact siblingUnique_empty name
  | some child =>
    rw [counterpart_of_found found]
    exact unique.child (findDir?_mem found)

theorem lookup?_empty (name : Text) (path : List Text) (sought : Text) :
    lookup? ⟨name, [], []⟩ path sought = none := by
  cases path <;> rfl

/-- A directory that is not there has no files, so an empty one may stand for it. -/
theorem lookup?_counterpart (dir : Dir) (first : Text) (rest : List Text) (name : Text) :
    (dir.counterpart first).lookup? rest name = dir.lookup? (first :: rest) name := by
  rw [lookup?_cons]
  cases found : dir.findDir? first with
  | none => rw [counterpart_of_absent found, lookup?_empty, Option.bind_none]
  | some child => rw [counterpart_of_found found, Option.bind_some]

theorem hashAt?_counterpart (dir : Dir) (first : Text) (rest : List Text) (name : Text) :
    (dir.counterpart first).hashAt? rest name = dir.hashAt? (first :: rest) name := by
  rw [hashAt?, hashAt?, lookup?_counterpart]

/-- Descending from a counterpart to a directory with files is descending to it from above. -/
theorem descend?_counterpart {holder : Dir} {path : List Text} {key : Text × Text}
    (held : key ∈ holder.fileKeys) :
    (dir.counterpart name).descend? path = some holder ↔
      dir.descend? (name :: path) = some holder := by
  cases found : dir.findDir? name with
  | some child => simp [counterpart_of_found found, descend?, found]
  | none =>
    rw [counterpart_of_absent found, descend?, found, Option.bind_none]
    constructor
    · intro reached
      cases path with
      | nil =>
        cases reached
        simp [fileKeys] at held
      | cons first rest => cases reached
    · intro reached
      cases reached

end Counterpart

section Contains

variable {source target : Dir}

private theorem holdsFiles_iff (source : Dir) (files : List File) :
    source.holdsFiles files = true ↔ ∀ file ∈ files, file.key ∈ source.fileKeys := by
  simp [holdsFiles]

private theorem containsFrom_append (first later : List (Dir × Dir)) :
    containsFrom (first ++ later) = (containsFrom first && containsFrom later) := by
  induction first using containsFrom.induct with
  | case1 => simp [containsFrom]
  | case2 source target waiting ih =>
    rw [List.cons_append, containsFrom, containsFrom, ← List.append_assoc, ih, Bool.and_assoc]

private theorem containsFrom_eq_all (waiting : List (Dir × Dir)) :
    containsFrom waiting = waiting.all fun pair => pair.1.contains pair.2 := by
  induction waiting with
  | nil => rw [containsFrom, List.all_nil]
  | cons pair rest ih =>
    rw [← List.singleton_append, containsFrom_append, ih, List.singleton_append, List.all_cons]
    rfl

theorem contains_eq (source target : Dir) :
    source.contains target =
      (source.holdsFiles target.files &&
        target.dirs.all fun child => (source.counterpart child.name).contains child) := by
  rw [contains, containsFrom, List.append_nil, containsFrom_eq_all, paired, List.all_reverse,
    List.all_map]
  rfl

theorem key_mem_fileKeys_iff_exists (dir : Dir) (file : File) :
    file.key ∈ dir.fileKeys ↔
      ∃ held ∈ dir.files, held.name = file.name ∧ held.hashOf = file.hashOf := by
  simp only [fileKeys, List.mem_map, File.key, Prod.mk.injEq]

theorem contains_iff (source target : Dir) :
    source.contains target = true ↔
      (∀ file ∈ target.files, file.key ∈ source.fileKeys) ∧
        ∀ child ∈ target.dirs, (source.counterpart child.name).contains child = true := by
  rw [contains_eq, Bool.and_eq_true, holdsFiles_iff, List.all_eq_true]

/-- Every file of the contained tree is under the same path in the other one, where it is
enough to descend to the first directory of each name. -/
theorem contains_iff_descend? :
    source.contains target = true ↔
      ∀ path holder, target.At path holder → ∀ file ∈ holder.files,
        ∃ found, source.descend? path = some found ∧ file.key ∈ found.fileKeys := by
  induction target generalizing source with
  | node name files dirs ih =>
    rw [contains_iff]
    constructor
    · rintro ⟨held, below⟩ path holder reached file member
      cases reached with
      | here => exact ⟨source, rfl, held file member⟩
      | through childMember rest =>
        obtain ⟨found, descended, keyHeld⟩ :=
          (ih _ childMember).mp (below _ childMember) _ holder rest file member
        exact ⟨found, (descend?_counterpart keyHeld).mp descended, keyHeld⟩
    · intro everyFile
      constructor
      · intro file member
        obtain ⟨found, descended, keyHeld⟩ := everyFile [] _ .here file member
        cases descended
        exact keyHeld
      · intro child childMember
        refine (ih child childMember).mpr ?_
        intro path holder reached file member
        obtain ⟨found, descended, keyHeld⟩ :=
          everyFile _ holder (.through childMember reached) file member
        exact ⟨found, (descend?_counterpart keyHeld).mpr descended, keyHeld⟩

/-- One tree contains another one if for every file of the other, in any of several directories of
one path, descending along that path finds a directory with a file of the same name and hash. -/
theorem contains_iff_each_file_found (source target : Dir) :
    source.contains target = true ↔
      ∀ path holder, target.At path holder → ∀ file ∈ holder.files,
        ∃ found, source.descend? path = some found ∧
          ∃ held ∈ found.files, held.name = file.name ∧ held.hashOf = file.hashOf := by
  simp only [contains_iff_descend?, key_mem_fileKeys_iff_exists]

/-- A tree need not contain itself: only the first of two directories of one name is found. -/
example :
    let tree : Dir :=
      ⟨"addon", [], [⟨"maps", [], []⟩, ⟨"maps", [⟨"first.map", none, none⟩], []⟩]⟩
    tree.contains tree = false := by
  decide +kernel

theorem hashAt?_eq_some_iff (unique : source.SiblingUnique) {path : List Text}
    {name hash : Text} :
    source.hashAt? path name = some hash ↔ (path, name, hash) ∈ source.identities := by
  rw [hashAt?, Option.map_eq_some_iff]
  constructor
  · rintro ⟨file, found, rfl⟩
    obtain ⟨holder, reached, member, rfl⟩ := at_of_lookup? found
    exact ⟨holder, reached, List.mem_map_of_mem member⟩
  · rintro ⟨holder, reached, held⟩
    obtain ⟨file, member, same⟩ := List.mem_map.mp held
    cases same
    exact ⟨file, (lookup?_eq_some_iff unique).mpr ⟨holder, reached, member, rfl⟩, rfl⟩

theorem contains_iff_subset (sourceUnique : source.SiblingUnique) :
    source.contains target = true ↔ target.identities ⊆ source.identities := by
  rw [contains_iff_descend?]
  constructor
  · rintro everyFile ⟨path, key⟩ ⟨holder, reached, held⟩
    obtain ⟨file, member, rfl⟩ := List.mem_map.mp held
    obtain ⟨found, descended, keyHeld⟩ := everyFile path holder reached file member
    exact ⟨found, at_of_descend? descended, keyHeld⟩
  · intro included path holder reached file member
    obtain ⟨found, at_found, keyHeld⟩ :=
      included (show (path, file.key) ∈ target.identities from
        ⟨holder, reached, List.mem_map_of_mem member⟩)
    exact ⟨found, (at_iff_descend? sourceUnique).mp at_found, keyHeld⟩

/-- A tree without the hash of a file at its place does not contain a tree with that file. -/
theorem not_contains_of_hashAt? (sourceUnique : source.SiblingUnique)
    (targetUnique : target.SiblingUnique) {path : List Text} {name : Text} {file : File}
    (wanted : target.lookup? path name = some file)
    (lacked : source.hashAt? path name ≠ some file.hashOf) : source.contains target = false := by
  rw [← Bool.not_eq_true, contains_iff_subset sourceUnique]
  intro included
  have there : (path, name, file.hashOf) ∈ target.identities :=
    (hashAt?_eq_some_iff targetUnique).mp (by rw [hashAt?, wanted, Option.map_some])
  exact lacked ((hashAt?_eq_some_iff sourceUnique).mpr (included there))

/-- Two trees with distinct siblings contain each other if the same places hold the same
hashes. -/
theorem contains_both_iff (sourceUnique : source.SiblingUnique)
    (targetUnique : target.SiblingUnique) :
    source.contains target = true ∧ target.contains source = true ↔
      ∀ path name, source.hashAt? path name = target.hashAt? path name := by
  rw [contains_iff_subset sourceUnique, contains_iff_subset targetUnique, and_comm,
    ← Set.Subset.antisymm_iff]
  constructor
  · intro same path name
    ext hash
    rw [hashAt?_eq_some_iff sourceUnique, hashAt?_eq_some_iff targetUnique, same]
  · intro same
    ext ⟨path, name, hash⟩
    rw [← hashAt?_eq_some_iff sourceUnique, ← hashAt?_eq_some_iff targetUnique, same]

end Contains

end AddonExchange.Dir
