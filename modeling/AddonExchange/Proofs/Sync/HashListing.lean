import AddonExchange.Proofs.Sync.FileHash
import AddonExchange.Proofs.Tree.Copy
import AddonExchange.Proofs.Tree.MapFiles
import AddonExchange.Sync.HashList
import AddonExchange.Tree.Walk
import Mathlib.Data.List.Forall2

/-! How hash lists are made. Hashes that are computed beforehand are found again by the entries of
the tree they belong to, so they are those that would be computed on the spot; and the list that is
filled directory by directory has each of them in the place of its file. -/

namespace AddonExchange

namespace File

/-- A file with its hash in place of its contents. -/
def hashEntry (file : File) : File := ⟨file.name, none, some file.hashOf⟩

theorem hashOf_hashEntry (file : File) : file.hashEntry.hashOf = file.hashOf :=
  hashOf_of_hash file.hashOf_ne_nil rfl

theorem hashEntry_hashEntry (file : File) : file.hashEntry.hashEntry = file.hashEntry := by
  rw [hashEntry, hashOf_hashEntry]
  rfl

private theorem hashOf_of_not_carriesHash {file : File} (none : file.carriesHash = false) :
    file.hashOf = contentHash (file.contents.getD []) := by
  unfold hashOf
  split
  · rename_i carried
    simp [carriesHash, carried] at none
  · rfl

end File

namespace Dir

section Entries

variable {tree dir : Dir} {route : List Nat}

def fileOf? (tree : Dir) (id : FileId) : Option File :=
  (tree.along? id.route).bind (·.files[id.position]?)

private theorem along?_of_mem_routed (reached : tree.along? route = some dir)
    {waits : List Nat × Dir}
    (member : waits ∈ routed route dir.dirs) : tree.along? waits.1 = some waits.2 := by
  obtain ⟨placed, listed, rfl⟩ := List.mem_map.mp member
  exact along?_child reached (List.mem_zipIdx_iff_getElem?.mp listed)

private theorem map_snd_identified (route : List Nat) (dir : Dir) :
    (dir.identified route).map (·.2) = dir.files := by
  rw [identified, List.map_map]
  exact List.zipIdx_map_fst 0 dir.files

private theorem fileOf?_of_mem_identified (reached : tree.along? route = some dir)
    {entry : FileId × File} (member : entry ∈ dir.identified route) :
    tree.fileOf? entry.1 = some entry.2 := by
  obtain ⟨placed, listed, rfl⟩ := List.mem_map.mp member
  rw [fileOf?, reached]
  exact List.mem_zipIdx_iff_getElem?.mp listed

private theorem fileOf?_of_mem_identifiedFrom {waiting : List (List Nat × Dir)}
    (reached : ∀ waits ∈ waiting, tree.along? waits.1 = some waits.2) {entry : FileId × File}
    (member : entry ∈ identifiedFrom waiting) : tree.fileOf? entry.1 = some entry.2 := by
  induction waiting using identifiedFrom.induct with
  | case1 => simp [identifiedFrom] at member
  | case2 route dir waiting ih =>
    obtain ⟨here, reachedBefore⟩ := List.forall_mem_cons.mp reached
    have reachedNext : ∀ waits ∈ routed route dir.dirs ++ waiting,
        tree.along? waits.1 = some waits.2 :=
      List.forall_mem_append.mpr
        ⟨fun waits below => along?_of_mem_routed here below, reachedBefore⟩
    rw [identifiedFrom, List.mem_append] at member
    cases member with
    | inl own => exact fileOf?_of_mem_identified here own
    | inr later => exact ih reachedNext later

end Entries

end Dir

section Known

variable {tree dir : Dir} {known : KnownHashes}

/-- Whether the hashes known for entries of a tree are those of their files. -/
def KnownHashes.BelongTo (known : KnownHashes) (tree : Dir) : Prop :=
  ∀ id file hash, tree.fileOf? id = some file → known.lookup id = some hash → hash = file.hashOf

private theorem KnownHashes.belongTo_nil (tree : Dir) : KnownHashes.BelongTo [] tree := by
  intro id file hash _ found
  cases found

private theorem Dir.prehash_eq (tree : Dir) :
    tree.prehash =
      ((identifiedFrom [([], tree)]).filter fun entry => !entry.2.carriesHash).map fun entry =>
        (entry.1, contentHash (entry.2.contents.getD [])) := by
  rw [prehash, List.map_map, List.zip_map']
  rfl

/-- Hashes that are computed beforehand are those of the files that they are found for. -/
theorem Dir.belongTo_prehash (tree : Dir) : tree.prehash.BelongTo tree := by
  intro id file hash here found
  obtain ⟨before, after, listed, _⟩ := List.lookup_eq_some_iff.mp found
  have member : (id, hash) ∈ tree.prehash := by
    rw [listed]
    exact List.mem_append_right _ (List.mem_cons_self ..)
  rw [prehash_eq] at member
  obtain ⟨entry, pending, same⟩ := List.mem_map.mp member
  obtain ⟨visited, carriesNone⟩ := List.mem_filter.mp pending
  cases same
  have root : ∀ waits ∈ [(([] : List Nat), tree)], tree.along? waits.1 = some waits.2 :=
    List.forall_mem_singleton.mpr rfl
  -- The entry that was visited is the one that is asked for, so its file is the same.
  have known := fileOf?_of_mem_identifiedFrom root visited
  rw [here] at known
  cases known
  exact (File.hashOf_of_not_carriesHash (by simpa using carriesNone)).symm

/-- A file gets its own hash in a list, be it known already or not. -/
theorem File.hashEntryBy_eq (belong : known.BelongTo tree) {id : FileId} {file : File}
    (here : tree.fileOf? id = some file) : file.hashEntryBy known id = file.hashEntry := by
  rw [hashEntryBy, hashEntry]
  split
  · rename_i c rest found
    rw [belong id file _ here found]
  · rfl

/-- The entries of a directory are the same however many of their hashes are known. -/
theorem Dir.map_hashEntryBy_identified (belong : known.BelongTo tree) {route : List Nat}
    (reached : tree.along? route = some dir) :
    (dir.identified route).map (fun entry => entry.2.hashEntryBy known entry.1) =
      dir.files.map File.hashEntry := by
  have own : (dir.identified route).map (fun entry => entry.2.hashEntryBy known entry.1) =
      (dir.identified route).map fun entry => entry.2.hashEntry :=
    List.map_congr_left fun entry member =>
      File.hashEntryBy_eq belong (fileOf?_of_mem_identified reached member)
  rw [own, ← map_snd_identified route dir, List.map_map]
  rfl

end Known

namespace Dir

section Filling

variable {tree : Dir} {known : KnownHashes}

/-- A directory with the hash lists of what is in another one added at the end. -/
def withListOf (source found : Dir) : Dir :=
  ⟨found.name, found.files ++ source.files.map File.hashEntry,
    found.dirs ++ source.dirs.map (mapFiles File.hashEntry)⟩

private theorem withListOf_empty (dir : Dir) :
    withListOf dir ⟨dir.name, [], []⟩ = dir.mapFiles File.hashEntry := by
  cases dir
  rw [mapFiles_mk]
  rfl

/-- The tasks below a task are those of a copy, and each knows where its directory is. -/
theorem map_toCopyTask_below (task : ListTask) (held : Nat) :
    (task.below held).map ListTask.toCopyTask =
      CopyTask.below task.route held task.source.dirs := by
  have shifted := @List.zipIdx_eq_map_add _ task.source.dirs held
  rw [ListTask.below, CopyTask.below, List.map_reverse, List.map_map, shifted, List.map_map]
  rfl

private theorem along?_origin_of_mem_below {task below : ListTask} {held : Nat}
    (reached : tree.along? task.origin = some task.source) (member : below ∈ task.below held) :
    tree.along? below.origin = some below.source := by
  obtain ⟨placed, listed, rfl⟩ := List.mem_map.mp (List.mem_reverse.mp member)
  exact along?_child reached (List.mem_zipIdx_iff_getElem?.mp listed)

private theorem foldl_complete_addListed (belong : known.BelongTo tree) {task : ListTask}
    (reached : tree.along? task.origin = some task.source) (found : Dir) :
    (CopyTask.below [] found.dirs.length task.source.dirs).foldl (complete withListOf)
        (found.addListed known task) =
      withListOf task.source found := by
  rw [addListed, map_hashEntryBy_identified belong reached, foldl_complete_below]
  simp only [withListOf_empty]
  rfl

theorem listFrom_eq (belong : known.BelongTo tree) (made : Dir) {waiting : List ListTask}
    (reached : ∀ task ∈ waiting, tree.along? task.origin = some task.source) :
    listFrom known made waiting =
      (waiting.map ListTask.toCopyTask).foldl (complete withListOf) made := by
  induction made, waiting using listFrom.induct known with
  | case1 made => rw [listFrom, List.map_nil, List.foldl_nil]
  | case2 made task waiting held ih =>
    obtain ⟨here, reachedBefore⟩ := List.forall_mem_cons.mp reached
    have reachedNext : ∀ next ∈ task.below held ++ waiting,
        tree.along? next.origin = some next.source :=
      List.forall_mem_append.mpr
        ⟨fun next below => along?_origin_of_mem_below here below, reachedBefore⟩
    rw [listFrom, ih reachedNext, List.map_append, List.foldl_append, map_toCopyTask_below,
      foldl_complete_changeAlong (foldl_complete_addListed belong here), List.map_cons,
      List.foldl_cons]

/-- A hash list is the tree with an entry for each of its files, with any number of workers. -/
theorem hashList_eq_mapFiles (workers : Option Int) (dir : Dir) :
    dir.hashList workers = dir.mapFiles File.hashEntry := by
  have belong : KnownHashes.BelongTo (if workers.any (1 < ·) then dir.prehash else []) dir := by
    split
    · exact dir.belongTo_prehash
    · exact KnownHashes.belongTo_nil dir
  have reached : ∀ task ∈ [(⟨⟨dir, []⟩, []⟩ : ListTask)],
      dir.along? task.origin = some task.source :=
    List.forall_mem_singleton.mpr rfl
  rw [hashList, listFrom_eq belong _ reached]
  exact withListOf_empty dir

end Filling

section Shape

theorem along?_mapFiles (change : File → File) (dir : Dir) (route : List Nat) :
    (dir.mapFiles change).along? route = (dir.along? route).map (mapFiles change) := by
  induction route generalizing dir with
  | nil => rfl
  | cons position rest ih =>
    rw [along?, along?, mapFiles_dirs, List.getElem?_map, Option.map_bind, Option.bind_map]
    exact Option.bind_congr fun child _ => ih child

/-- What the entry of a hash list for a file has: its name, and its hash instead of contents. -/
structure IsEntryOf (entry file : File) : Prop where
  name : entry.name = file.name
  contents : entry.contents = none
  hash : entry.hash = some file.hashOf
  nonempty : file.hashOf ≠ []

/-- What a directory of a hash list has in common with the one that it lists: the names, those of
the subdirectories in their order, and an entry for each file in their order. -/
structure IsListOf (list dir : Dir) : Prop where
  name : list.name = dir.name
  dirs : list.dirs.map Dir.name = dir.dirs.map Dir.name
  files : List.Forall₂ IsEntryOf list.files dir.files

private theorem isEntryOf_hashEntry (file : File) : IsEntryOf file.hashEntry file :=
  ⟨rfl, rfl, rfl, file.hashOf_ne_nil⟩

theorem isListOf_mapFiles (dir : Dir) : IsListOf (dir.mapFiles File.hashEntry) dir := by
  refine ⟨mapFiles_name _ dir, ?_, ?_⟩
  · rw [mapFiles_dirs, List.map_map]
    exact List.map_congr_left fun child _ => mapFiles_name _ child
  · rw [mapFiles_files, List.forall₂_map_left_iff, List.forall₂_same]
    exact fun file _ => isEntryOf_hashEntry file

/-- A hash list has the shape of its tree: where one has a directory so has the other, and the two
have the same names in the same order and a hash for each file. The number of workers makes no
difference, and a hash list is its own hash list. -/
theorem hashList_keeps_shape (tree : Dir) (workers : Option Int) :
    (∀ route,
        Option.Rel IsListOf ((tree.hashList workers).along? route) (tree.along? route)) ∧
      (∀ others, tree.hashList workers = tree.hashList others) ∧
      ∀ others, (tree.hashList workers).hashList others = tree.hashList workers := by
  refine ⟨?_, ?_, ?_⟩
  · intro route
    rw [hashList_eq_mapFiles, along?_mapFiles]
    cases tree.along? route with
    | none => exact .none
    | some dir => exact .some (isListOf_mapFiles dir)
  · intro others
    rw [hashList_eq_mapFiles, hashList_eq_mapFiles]
  · intro others
    have idempotent : File.hashEntry ∘ File.hashEntry = File.hashEntry := by
      funext file
      exact file.hashEntry_hashEntry
    rw [hashList_eq_mapFiles, hashList_eq_mapFiles, mapFiles_mapFiles, idempotent]

end Shape

end Dir

end AddonExchange
