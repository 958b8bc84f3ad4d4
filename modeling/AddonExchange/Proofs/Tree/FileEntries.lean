import AddonExchange.Proofs.Tree.Walk
import AddonExchange.Sync.HashList
import Mathlib.Data.List.Nodup

namespace AddonExchange

namespace FileId

/-- An entry seen from the directory above, where the one it was seen from has a position. -/
def below (position : Nat) (id : FileId) : FileId := ⟨position :: id.route, id.position⟩

/-- The order of entries in a tree: what is in a directory comes before what is further below it,
and everything else goes by the first positions that differ. -/
def Precedes (first second : FileId) : Prop :=
  first.route < second.route ∨ first.route = second.route ∧ first.position < second.position

private theorem Precedes.ne {first second : FileId} (precedes : first.Precedes second) :
    first ≠ second := by
  rintro rfl
  rcases precedes with earlier | ⟨_, earlier⟩
  · exact List.lt_irrefl _ earlier
  · exact Nat.lt_irrefl _ earlier

theorem Precedes.below {first second : FileId} (precedes : first.Precedes second)
    (position : Nat) : (first.below position).Precedes (second.below position) := by
  rcases precedes with earlier | ⟨same, earlier⟩
  · exact Or.inl (List.cons_lt_cons_iff.mpr (Or.inr ⟨rfl, earlier⟩))
  · exact Or.inr ⟨congrArg (position :: ·) same, earlier⟩

private theorem below_precedes_below {position other : Nat} (earlier : position < other)
    (first second : FileId) : (first.below position).Precedes (second.below other) :=
  Or.inl (List.cons_lt_cons_iff.mpr (Or.inl earlier))

end FileId

namespace Dir

variable {tree : Dir}

/-- The file that has a position in the directory which a route reaches, with the names that lead
to this directory. -/
def locatedAlong? (tree : Dir) (position : Nat) : List Nat → Option LocatedFile
  | [] => tree.files[position]?.map fun file => ([], file)
  | first :: rest => tree.dirs[first]?.bind fun child =>
      (child.locatedAlong? position rest).map (LocatedFile.below child.name)

/-- The file that an entry of a tree is, with the names that lead to it. -/
def locatedAt? (tree : Dir) (id : FileId) : Option LocatedFile :=
  tree.locatedAlong? id.position id.route

mutual

/-- The entries of the files of a tree: those in its root, then those below each subdirectory. -/
def fileIds : Dir → List FileId
  | ⟨_, files, dirs⟩ =>
    files.zipIdx.map (fun placed => ⟨[], placed.2⟩) ++ fileIdsAll 0 dirs

/-- The entries below subdirectories of which the first one has the position that is given. -/
def fileIdsAll (position : Nat) : List Dir → List FileId
  | [] => []
  | dir :: rest => dir.fileIds.map (FileId.below position) ++ fileIdsAll (position + 1) rest

end

private theorem fileIdsAll_eq (position : Nat) (dirs : List Dir) :
    fileIdsAll position dirs =
      (dirs.zipIdx position).flatMap fun placed =>
        placed.1.fileIds.map (FileId.below placed.2) := by
  induction dirs generalizing position with
  | nil => rfl
  | cons dir rest ih => rw [fileIdsAll, ih, List.zipIdx_cons, List.flatMap_cons]

theorem fileIds_eq (tree : Dir) :
    tree.fileIds =
      tree.files.zipIdx.map (fun placed => ⟨[], placed.2⟩) ++
        tree.dirs.zipIdx.flatMap fun placed => placed.1.fileIds.map (FileId.below placed.2) := by
  cases tree
  rw [fileIds, fileIdsAll_eq]

section Reaching

variable {child : Dir} {file : File} {position : Nat}

private theorem locatedAt?_own (held : tree.files[position]? = some file) :
    tree.locatedAt? ⟨[], position⟩ = some ([], file) := by
  rw [locatedAt?, locatedAlong?, held]
  rfl

private theorem locatedAt?_below (held : tree.dirs[position]? = some child) (id : FileId) :
    tree.locatedAt? (id.below position) =
      (child.locatedAt? id).map (LocatedFile.below child.name) := by
  rw [locatedAt?, FileId.below, locatedAlong?, held]
  rfl

private theorem map_locatedAt?_own (tree : Dir) :
    (tree.files.zipIdx.map fun placed => ⟨[], placed.2⟩).map tree.locatedAt? =
      (tree.files.map fun file => ([], file)).map some := by
  have reached : (tree.files.zipIdx.map fun placed => tree.locatedAt? ⟨[], placed.2⟩) =
      tree.files.zipIdx.map ((fun file => some ([], file)) ∘ Prod.fst) :=
    List.map_congr_left fun placed listed =>
      locatedAt?_own (List.mem_zipIdx_iff_getElem?.mp listed)
  rw [← List.map_map, List.zipIdx_map_fst] at reached
  rw [List.map_map, List.map_map]
  exact reached

/-- If the entries below a subdirectory are its files, they are so seen from above. -/
theorem map_locatedAt?_below (held : tree.dirs[position]? = some child)
    (inChild : child.fileIds.map child.locatedAt? = child.locatedFiles.map some) :
    (child.fileIds.map (FileId.below position)).map tree.locatedAt? =
      (child.locatedFiles.map (LocatedFile.below child.name)).map some := by
  have seen : tree.locatedAt? ∘ FileId.below position =
      Option.map (LocatedFile.below child.name) ∘ child.locatedAt? :=
    funext (locatedAt?_below held)
  rw [List.map_map, seen, ← List.map_map, inChild, List.map_map, List.map_map]
  rfl

end Reaching

private theorem map_locatedAt?_fileIds (tree : Dir) :
    tree.fileIds.map tree.locatedAt? = tree.locatedFiles.map some := by
  induction tree with
  | node name files dirs ih =>
    have below : (dirs.zipIdx.flatMap fun placed =>
          (placed.1.fileIds.map (FileId.below placed.2)).map (locatedAt? ⟨name, files, dirs⟩)) =
        dirs.zipIdx.flatMap fun placed =>
          (placed.1.locatedFiles.map (LocatedFile.below placed.1.name)).map some := by
      refine List.flatMap_congr fun placed listed => ?_
      have held := List.mem_zipIdx_iff_getElem?.mp listed
      exact map_locatedAt?_below held (ih placed.1 (List.mem_of_getElem? held))
    -- The positions of the subdirectories have done their work and are forgotten.
    have forgotten : (dirs.zipIdx.flatMap fun placed =>
          (placed.1.locatedFiles.map (LocatedFile.below placed.1.name)).map some) =
        dirs.flatMap fun child =>
          (child.locatedFiles.map (LocatedFile.below child.name)).map some := by
      conv_rhs => rw [← List.zipIdx_map_fst 0 dirs, List.flatMap_map]
    rw [fileIds_eq, locatedFiles_eq, List.map_append, List.map_append, map_locatedAt?_own,
      List.map_flatMap, List.map_flatMap, below, forgotten]

private theorem mem_fileIds_of_locatedAlong? {position : Nat} {route : List Nat}
    (there : (tree.locatedAlong? position route).isSome) : ⟨route, position⟩ ∈ tree.fileIds := by
  induction route generalizing tree with
  | nil =>
    rw [locatedAlong?, Option.isSome_map] at there
    obtain ⟨file, held⟩ := Option.isSome_iff_exists.mp there
    rw [fileIds_eq]
    refine List.mem_append_left _ (List.mem_map.mpr ⟨(file, position), ?_, rfl⟩)
    exact List.mem_zipIdx_iff_getElem?.mpr held
  | cons first rest ih =>
    rw [locatedAlong?] at there
    obtain ⟨child, held⟩ := Option.isSome_iff_exists.mp (Option.isSome_of_isSome_bind there)
    rw [held, Option.bind_some, Option.isSome_map] at there
    rw [fileIds_eq]
    refine List.mem_append_right _ (List.mem_flatMap.mpr ⟨(child, first), ?_, ?_⟩)
    · exact List.mem_zipIdx_iff_getElem?.mpr held
    · exact List.mem_map.mpr ⟨⟨rest, position⟩, ih there, rfl⟩

theorem mem_fileIds_iff {id : FileId} : id ∈ tree.fileIds ↔ (tree.locatedAt? id).isSome := by
  constructor
  · intro listed
    have located : tree.locatedAt? id ∈ tree.locatedFiles.map some := by
      rw [← map_locatedAt?_fileIds]
      exact List.mem_map.mpr ⟨id, listed, rfl⟩
    obtain ⟨found, _, same⟩ := List.mem_map.mp located
    rw [← same]
    rfl
  · exact mem_fileIds_of_locatedAlong?

private theorem pairwise_zipIdx {α : Type} (items : List α) :
    items.zipIdx.Pairwise fun first second => first.2 < second.2 := by
  apply List.pairwise_map.mp
  change (items.zipIdx.map Prod.snd).Pairwise (· < ·)
  rw [List.zipIdx_map_snd]
  exact List.pairwise_lt_range' 1

theorem pairwise_precedes_fileIds (tree : Dir) : tree.fileIds.Pairwise FileId.Precedes := by
  induction tree with
  | node name files dirs ih =>
    rw [fileIds_eq, List.pairwise_append, List.pairwise_map, List.pairwise_flatMap]
    refine ⟨?_, ⟨?_, ?_⟩, ?_⟩
    · exact (pairwise_zipIdx files).imp fun earlier => Or.inr ⟨rfl, earlier⟩
    · intro placed listed
      rw [List.pairwise_map]
      have held := List.mem_zipIdx_iff_getElem?.mp listed
      exact (ih placed.1 (List.mem_of_getElem? held)).imp fun precedes => precedes.below placed.2
    · refine (pairwise_zipIdx dirs).imp fun earlier first firstListed second secondListed => ?_
      obtain ⟨inFirst, _, rfl⟩ := List.mem_map.mp firstListed
      obtain ⟨inSecond, _, rfl⟩ := List.mem_map.mp secondListed
      exact FileId.below_precedes_below earlier inFirst inSecond
    · intro own ownListed below belowListed
      obtain ⟨placed, _, rfl⟩ := List.mem_map.mp ownListed
      obtain ⟨child, _, further⟩ := List.mem_flatMap.mp belowListed
      obtain ⟨id, _, rfl⟩ := List.mem_map.mp further
      exact Or.inl (List.nil_lt_cons _ _)

/-- A walk visits every file once and in preorder: what it lists are the files of the root in their
order, then those below each subdirectory in its turn, one for each entry that a file of the tree
is. The path of each is made of the names that lead to it and its own, joined from left to right
with slashes as soon as there is something to join to. -/
theorem walk_visits_each_file_once (tree : Dir) :
    tree.walk = tree.locatedFiles.map (fun located =>
        ((located.1 ++ [located.2.name]).foldl
          (fun path name => if path = [] then name else path ++ Text.ofString "/" ++ name) [],
          located.2)) ∧
      (∀ dir : Dir, dir.locatedFiles =
        dir.files.map (fun file => ([], file)) ++
          dir.dirs.flatMap fun child =>
            child.locatedFiles.map fun located => (child.name :: located.1, located.2)) ∧
      ∃ ids : List FileId, ids.Nodup ∧ ids.Pairwise FileId.Precedes ∧
        (∀ id, id ∈ ids ↔ (tree.locatedAt? id).isSome) ∧
        ids.map tree.locatedAt? = tree.locatedFiles.map some := by
  have joining : (fun path name => if path = [] then name else path ++ Text.ofString "/" ++ name) =
      Text.joinPath := by
    funext path name
    rw [Text.joinPath]
    simp only [List.isEmpty_iff]
  have ascending := pairwise_precedes_fileIds tree
  refine ⟨?_, locatedFiles_eq, tree.fileIds, ?_, ascending, fun _ => mem_fileIds_iff, ?_⟩
  · rw [joining]
    exact walk_eq_locatedFiles tree
  · exact ascending.imp FileId.Precedes.ne
  · exact map_locatedAt?_fileIds tree

end Dir

end AddonExchange
