import AddonExchange.Proofs.Admission.Admitted
import AddonExchange.Proofs.Tree.Walk
import Mathlib.Data.List.Perm.Basic

namespace AddonExchange.Dir

open CodePoint (slash)

variable {tree : Dir} {place : Place} {entry : Entry}

section Components

private theorem isComponent_of_at {names : List Text} {target : Dir}
    (legal : tree.Everywhere IllegalNames.Legal) (reached : tree.At names target) :
    ∀ name ∈ names, Text.IsComponent name := by
  induction reached with
  | here => simp
  | @through dir child target path member rest ih =>
    have listed : Entry.dir child.name ∈ dir.entries := dir_mem_entries.mpr ⟨child, member, rfl⟩
    have childLegal := legal.root (.dir child.name) listed
    exact List.forall_mem_cons.mpr
      ⟨Name.isComponent_of_isLegalFile childLegal, ih (legal.child member)⟩

/-- With legal names everywhere, the names that lead to an entry are components of a path. -/
theorem isComponent_of_mem_entries (legal : tree.Everywhere IllegalNames.Legal)
    (listed : place ∈ tree.located) (member : entry ∈ place.2.entries) :
    ∀ name ∈ place.1 ++ [entry.name], Text.IsComponent name := by
  have reached := mem_located_iff.mp listed
  have entryLegal := legal.at reached entry member
  rw [List.forall_mem_append, List.forall_mem_singleton]
  exact ⟨isComponent_of_at legal reached, Name.isComponent_of_isLegalFile entryLegal⟩

theorem separable_of_mem_entries (legal : tree.Everywhere IllegalNames.Legal)
    (listed : place ∈ tree.located) (member : entry ∈ place.2.entries) :
    Text.Separable (place.1 ++ [entry.name]) :=
  Text.separable_of_isComponent (List.concat_ne_nil entry.name place.1)
    (isComponent_of_mem_entries legal listed member)

/-- With legal names everywhere, the paths of a walk fall into the names of the directories on the
way and the name of the file. All of these lead down, so no path leaves the root. -/
theorem walk_stays_below_root (legal : IllegalNames.allLegal tree = true) :
    (tree.walk.map fun (path, file) => (path.splitOn slash, file)) =
        (tree.located.flatMap fun (names, holder) =>
          holder.files.map fun file => (names ++ [file.name], file)) ∧
      ∀ path file, (path, file) ∈ tree.walk →
        path.head? ≠ some slash ∧
          (∀ component ∈ path.splitOn slash, Text.IsComponent component) ∧
          Text.resolve? (path.splitOn slash) = some (path.splitOn slash) := by
  rw [IllegalNames.allLegal_iff] at legal
  have fileListed {place : Place} {file : File} (held : file ∈ place.2.files) :
      Entry.file file.name ∈ place.2.entries := file_mem_entries.mpr ⟨file, held, rfl⟩
  constructor
  · rw [walk_eq, List.map_flatMap]
    refine List.flatMap_congr fun place listed => ?_
    rw [List.map_map]
    refine List.map_congr_left fun file held => ?_
    have separable := separable_of_mem_entries legal listed (fileListed held)
    exact congrArg (·, file) (Text.splitOn_joinNames separable)
  · intro path file walked
    rw [walk_eq, List.mem_flatMap] at walked
    obtain ⟨place, listed, here⟩ := walked
    obtain ⟨_, held, same⟩ := List.mem_map.mp here
    cases same
    have components := isComponent_of_mem_entries legal listed (fileListed held)
    have separable := separable_of_mem_entries legal listed (fileListed held)
    rw [Entry.name] at components separable
    rw [Text.splitOn_joinNames separable]
    exact ⟨Text.head?_joinNames separable, components, Text.resolve?_of_isComponent components⟩

/-- An add-on with files and directories on several levels, some with the same names. -/
def nestedAddon : Dir :=
  ⟨"addon", [⟨"main.cfg", some [0x61], none⟩],
    [⟨"units", [⟨"main.cfg", some [0x62], none⟩], [⟨"elves", [⟨"archer.cfg", none, none⟩], []⟩]⟩,
      ⟨"elves", [], []⟩]⟩

theorem walk_stays_below_root_nestedAddon :
    IllegalNames.allLegal nestedAddon = true ∧
      (nestedAddon.walk.map fun (path, file) => (path.splitOn slash, file)) =
        (nestedAddon.located.flatMap fun (names, holder) =>
          holder.files.map fun file => (names ++ [file.name], file)) ∧
      ∀ path file, (path, file) ∈ nestedAddon.walk →
        path.head? ≠ some slash ∧
          (∀ component ∈ path.splitOn slash, Text.IsComponent component) ∧
          Text.resolve? (path.splitOn slash) = some (path.splitOn slash) := by
  have legal : IllegalNames.allLegal nestedAddon = true := by decide +kernel
  exact ⟨legal, walk_stays_below_root legal⟩

end Components

section Folded

/-- The names that lead to each entry of a tree. -/
def addresses (tree : Dir) : List (List Text) :=
  tree.located.flatMap fun place => place.2.entries.map fun entry => place.1 ++ [entry.name]

def dirPaths (tree : Dir) : List Text :=
  tree.located.flatMap fun (names, holder) =>
    holder.dirs.map fun dir => Text.joinNames (names ++ [dir.name])

private theorem addresses_eq (tree : Dir) :
    tree.addresses =
      (tree.entries.map fun entry => [entry.name]) ++
        tree.dirs.flatMap fun dir => dir.addresses.map (dir.name :: ·) := by
  have byNames (dir : Dir) :
      dir.addresses = dir.addressed fun holder => holder.entries.map Entry.name := by
    simp only [addresses, addressed, List.map_map]
    rfl
  simp only [byNames]
  rw [addressed_eq, List.map_map]
  rfl

theorem paths_perm_addresses (tree : Dir) :
    (tree.walk.map (·.1) ++ tree.dirPaths).Perm (tree.addresses.map Text.joinNames) := by
  rw [walk_eq, List.map_flatMap, dirPaths, addresses, List.map_flatMap]
  refine (List.flatMap_append_perm _ _ _).trans ?_
  simp only [entries, List.map_append, List.map_map]
  rfl

private theorem ne_nil_of_mem_addresses {names : List Text} (member : names ∈ tree.addresses) :
    names ≠ [] := by
  obtain ⟨place, _, here⟩ := List.mem_flatMap.mp member
  obtain ⟨entry, _, rfl⟩ := List.mem_map.mp here
  exact List.concat_ne_nil entry.name place.1

/-- Lists are distinct if their heads tell their origins apart and those of one origin are. -/
theorem nodup_flatMap_cons {α β : Type} {items : List α} {head : α → β}
    {tails : α → List (List β)} (headsDistinct : (items.map head).Nodup)
    (tailsDistinct : ∀ item ∈ items, (tails item).Nodup) :
    (items.flatMap fun item => (tails item).map (head item :: ·)).Nodup := by
  rw [List.nodup_flatMap]
  constructor
  · intro item member
    exact (tailsDistinct item member).map List.cons_injective
  · refine (List.pairwise_map.mp headsDistinct).imp ?_
    intro first second headsDiffer whole inFirst inSecond
    obtain ⟨_, _, rfl⟩ := List.mem_map.mp inFirst
    obtain ⟨_, _, same⟩ := List.mem_map.mp inSecond
    exact headsDiffer (List.head_eq_of_cons_eq same).symm

/-- With distinct keys in every directory, addresses differ in more than case. -/
theorem nodup_addresses (distinct : tree.Everywhere CaseClash.Distinct) :
    (tree.addresses.map (List.map Text.foldAscii)).Nodup := by
  induction tree with
  | node own files dirs ih =>
    have here := (CaseClash.distinct_iff_nodup_folded _).mp distinct.root
    rw [addresses_eq, List.map_append, List.nodup_append', List.map_flatMap]
    simp only [List.map_map, Function.comp_def, List.map_cons]
    refine ⟨?_, ?_, ?_⟩
    · -- Entries of the root are at addresses of one name, those further down at longer ones.
      have single : Function.Injective fun name : Text => [name] :=
        fun _ _ => List.head_eq_of_cons_eq
      have alone := here.map single
      rwa [List.map_map] at alone
    · -- Below different subdirectories addresses differ in their first names, below one of them
      -- in what follows.
      have dirsDistinct : (dirs.map fun child => child.name.foldAscii).Nodup := by
        rw [entries, List.map_append, List.nodup_append', List.map_map, List.map_map] at here
        simpa [Function.comp_def, Entry.name] using here.2.1
      have below := nodup_flatMap_cons dirsDistinct fun child member =>
        ih child member (distinct.child member)
      simpa [List.map_map, Function.comp_def] using below
    · intro names atRoot further
      obtain ⟨entry, _, rfl⟩ := List.mem_map.mp atRoot
      obtain ⟨child, _, there⟩ := List.mem_flatMap.mp further
      obtain ⟨rest, listed, same⟩ := List.mem_map.mp there
      have nothing := List.map_eq_nil_iff.mp (List.tail_eq_of_cons_eq same)
      exact ne_nil_of_mem_addresses listed nothing

/-- No two paths of an admitted tree, of files or directories, are the same up to case. -/
theorem Admitted.nodup_paths (admitted : tree.Admitted) :
    ((tree.walk.map (·.1) ++ tree.dirPaths).map Text.foldAscii).Nodup := by
  have legal := (IllegalNames.allLegal_iff tree).mp admitted.namesLegal
  have distinct := (CaseClash.isFree_iff tree).mp admitted.clashFree
  have separable : ∀ names ∈ tree.addresses, Text.Separable names := by
    intro names member
    obtain ⟨place, listed, here⟩ := List.mem_flatMap.mp member
    obtain ⟨entry, held, rfl⟩ := List.mem_map.mp here
    exact separable_of_mem_entries legal listed held
  rw [((paths_perm_addresses tree).map Text.foldAscii).nodup_iff, List.map_map]
  have folded : tree.addresses.map (Text.foldAscii ∘ Text.joinNames) =
      (tree.addresses.map (List.map Text.foldAscii)).map Text.joinNames := by
    rw [List.map_map]
    exact List.map_congr_left fun names _ => Text.foldAscii_joinNames names
  rw [folded]
  refine (List.nodup_map_iff_inj_on (nodup_addresses distinct)).mpr ?_
  intro first firstMember second secondMember
  obtain ⟨names, member, rfl⟩ := List.mem_map.mp firstMember
  obtain ⟨others, otherMember, rfl⟩ := List.mem_map.mp secondMember
  exact Text.joinNames_inj (separable names member).foldAscii
    (separable others otherMember).foldAscii

theorem Admitted.nodup_paths_nestedAddon :
    nestedAddon.Admitted ∧
      ((nestedAddon.walk.map (·.1) ++ nestedAddon.dirPaths).map Text.foldAscii).Nodup := by
  have admitted : nestedAddon.Admitted := by decide +kernel
  exact ⟨admitted, admitted.nodup_paths⟩

end Folded

end AddonExchange.Dir
