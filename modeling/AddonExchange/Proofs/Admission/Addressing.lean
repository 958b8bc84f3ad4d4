import AddonExchange.Proofs.Admission.Paths

namespace AddonExchange.Dir

open CodePoint (slash)

variable {tree holder : Dir} {names : List Text} {name : Text} {file : File}

/-- The file that a path leads to. Its last component names the file and those before it the
directories on the way. -/
def fileAt? (tree : Dir) (path : Text) : Option File :=
  let components := path.splitOn slash
  tree.lookup? components.dropLast (components.getLastD [])

private theorem fileAt?_joinNames (tree : Dir) (separable : Text.Separable (names ++ [name])) :
    tree.fileAt? (Text.joinNames (names ++ [name])) = tree.lookup? names name := by
  rw [fileAt?, Text.splitOn_joinNames separable]
  simp only [List.dropLast_concat, List.getLastD_concat]

theorem Admitted.siblingUnique (admitted : tree.Admitted) : tree.SiblingUnique :=
  CaseClash.siblingUnique_of_isFree admitted.clashFree

private theorem Admitted.separable_of_at (admitted : tree.Admitted) (reached : tree.At names holder)
    (held : file ∈ holder.files) : Text.Separable (names ++ [file.name]) := by
  have legal := (IllegalNames.allLegal_iff tree).mp admitted.namesLegal
  have listed : Entry.file file.name ∈ holder.entries := file_mem_entries.mpr ⟨file, held, rfl⟩
  exact separable_of_mem_entries legal (mem_located_iff.mpr reached) listed

private theorem Admitted.separable_of_mem_addresses (admitted : tree.Admitted)
    (member : names ∈ tree.addresses) : Text.Separable names := by
  have legal := (IllegalNames.allLegal_iff tree).mp admitted.namesLegal
  obtain ⟨place, listed, here⟩ := List.mem_flatMap.mp member
  obtain ⟨entry, held, rfl⟩ := List.mem_map.mp here
  exact separable_of_mem_entries legal listed held

theorem Admitted.nodup_walk (admitted : tree.Admitted) : (tree.walk.map (·.1)).Nodup := by
  have distinct := (CaseClash.isFree_iff tree).mp admitted.clashFree
  have addressesNodup : tree.addresses.Nodup := (nodup_addresses distinct).of_map
  have pathsNodup : (tree.addresses.map Text.joinNames).Nodup := by
    refine (List.nodup_map_iff_inj_on addressesNodup).mpr ?_
    intro first member second otherMember
    exact Text.joinNames_inj (admitted.separable_of_mem_addresses member)
      (admitted.separable_of_mem_addresses otherMember)
  have walkedFirst := (paths_perm_addresses tree).nodup_iff.mpr pathsNodup
  exact walkedFirst.of_append_left

/-- Each path of a walk leads to its file. Each file that descending finds has its names, with
slashes between them, for a path that occurs once on the walk. -/
theorem Admitted.addressed_by_path (admitted : tree.Admitted) :
    (∀ path file, (path, file) ∈ tree.walk → tree.fileAt? path = some file) ∧
      ∀ names name file, tree.lookup? names name = some file →
        let path := [slash].intercalate (names ++ [name])
        (path, file) ∈ tree.walk ∧ (tree.walk.map (·.1)).count path = 1 := by
  constructor
  · intro path file walked
    obtain ⟨names, holder, reached, held, rfl⟩ := mem_walk_iff.mp walked
    rw [fileAt?_joinNames tree (admitted.separable_of_at reached held)]
    exact (lookup?_eq_some_iff admitted.siblingUnique).mpr ⟨holder, reached, held, rfl⟩
  · intro names name file found path
    obtain ⟨holder, reached, held, rfl⟩ := at_of_lookup? found
    have joined : Text.joinNames (names ++ [file.name]) = path :=
      Text.joinNames_eq_intercalate (admitted.separable_of_at reached held)
    have walked : (path, file) ∈ tree.walk :=
      mem_walk_iff.mpr ⟨names, holder, reached, held, joined⟩
    have listed : path ∈ tree.walk.map (·.1) := List.mem_map_of_mem walked
    exact ⟨walked, List.count_eq_one_of_mem admitted.nodup_walk listed⟩

theorem Admitted.addressed_by_path_nestedAddon :
    let names : List Text := ["units", "elves"]
    let archer : File := ⟨"archer.cfg", none, none⟩
    let path : Text := "units/elves/archer.cfg"
    nestedAddon.Admitted ∧ nestedAddon.lookup? names archer.name = some archer ∧
      (path, archer) ∈ nestedAddon.walk ∧ (nestedAddon.walk.map (·.1)).count path = 1 ∧
      nestedAddon.fileAt? path = some archer := by
  intro names archer path
  have admitted : nestedAddon.Admitted := by decide +kernel
  have found : nestedAddon.lookup? names archer.name = some archer := by decide
  obtain ⟨leads, listed⟩ := admitted.addressed_by_path
  have once := listed names archer.name archer found
  have joined : [slash].intercalate (names ++ [archer.name]) = path := by decide
  rw [joined] at once
  exact ⟨admitted, found, once.1, once.2, leads path archer once.1⟩

end AddonExchange.Dir
