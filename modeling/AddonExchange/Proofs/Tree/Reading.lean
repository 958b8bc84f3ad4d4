import AddonExchange.Proofs.Tree.Depth
import AddonExchange.Proofs.Tree.Format
import AddonExchange.Proofs.Tree.Preorder

/-! Reading decides the format: a value is read as a tree exactly if it describes that tree and
the directories of the tree nest no deeper than allowed. The reader opens one directory after
the other; what opening one of them finds is stated once, and the run by induction on what
waits. -/

namespace AddonExchange

/-- A tree that stands at some depth keeps a limit exactly if it has no subdirectories or stands
above the limit, and its subtrees keep the limit one level further down. -/
theorem Dir.depth_within_iff {name : Text} {files : List File} {dirs : List Dir} {level : Nat}
    {limit : Int} :
    (level + Dir.depth ⟨name, files, dirs⟩ : Int) ≤ max limit level ↔
      (dirs = [] ∨ (level : Int) < limit) ∧
        ∀ child ∈ dirs, (level + 1 + child.depth : Int) ≤ max limit (level + 1) := by
  constructor
  · intro within
    have lower (child : Dir) (member : child ∈ dirs) :
        (level + 1 + child.depth : Int) ≤ max limit level := by
      have shallower : child.depth < Dir.depth ⟨name, files, dirs⟩ := depth_lt_of_mem member
      omega
    constructor
    · cases dirs with
      | nil => exact Or.inl rfl
      | cons first rest =>
        have firstLower := lower first List.mem_cons_self
        right
        omega
    · intro child member
      have childLower := lower child member
      omega
  · rintro ⟨rfl | above, lower⟩
    · have flat : Dir.depth ⟨name, files, []⟩ = 0 := rfl
      omega
    · have bounded : Dir.depth ⟨name, files, dirs⟩ ≤ (limit - level).toNat := by
        rw [depth_le_iff]
        intro child member
        have childLower := lower child member
        omega
      omega

namespace TreeReader

variable {options : ReadOptions} {dir : Waiting}

section Step

/-- What a directory that waits is found to have when it is read: its files, and the entries of
its subdirectories with their names. -/
structure Opens (options : ReadOptions) (dir : Waiting) (files : List File)
    (subdirs : List Value) (names : List Text) : Prop where
  describes : ∃ entries, ListsEntries (dir.entry.get? "file") entries ∧
    List.Forall₂ (Value.DescribesFile options.escaped) entries files
  lists : ListsEntries (dir.entry.get? "dir") subdirs
  allowed : subdirs = [] ∨ (dir.depth : Int) < options.maxDepth
  named : List.Forall₂ Value.Named subdirs names

theorem readFrom_cons (options : ReadOptions) (dir : Waiting) (waiting : List Waiting) :
    readFrom options (dir :: waiting) = (do
      let entries ← children "file" dir.path dir.entry
      let files ← entries.mapM (readFile options.escaped dir.path)
      let subdirs ← children "dir" dir.path dir.entry
      if !subdirs.isEmpty && options.maxDepth ≤ dir.depth then
        throw ⟨dir.path, .tooDeep options.maxDepth⟩
      else
        let names ← subdirs.mapM (requireName dir.path)
        let rows ← readFrom options (below dir subdirs names ++ waiting)
        return ⟨dir.name, files, subdirs.length⟩ :: rows) := by
  rw [readFrom]
  congr 1
  funext entries
  congr 1
  funext files
  split
  · rename_i refused
    rw [refused]
    rfl
  · rename_i found
    rw [found]
    rfl

/-- Reading goes on with the subdirectories of the directory that was opened. -/
theorem readFrom_cons_eq_ok_iff {waiting : List Waiting} {rows : List Row} :
    readFrom options (dir :: waiting) = .ok rows ↔
      ∃ files subdirs names rest, Opens options dir files subdirs names ∧
        readFrom options (below dir subdirs names ++ waiting) = .ok rest ∧
        ⟨dir.name, files, subdirs.length⟩ :: rest = rows := by
  have allowed_iff (subdirs : List Value) :
      ¬ (!subdirs.isEmpty && decide (options.maxDepth ≤ dir.depth)) = true ↔
        subdirs = [] ∨ (dir.depth : Int) < options.maxDepth := by
    cases subdirs <;> simp
  simp only [readFrom_cons, bind_eq_ok_iff, pure_eq_ok_iff, throw_if_eq_ok_iff, mapM_eq_ok_iff,
    children_eq_ok_iff, readFile_eq_ok_iff, requireName_eq_ok_iff, allowed_iff]
  constructor
  · rintro ⟨entries, listed, files, described, subdirs, lists, allowed, names, named, rest, read,
      rfl⟩
    exact ⟨files, subdirs, names, rest, ⟨⟨entries, listed, described⟩, lists, allowed, named⟩,
      read, rfl⟩
  · rintro ⟨files, subdirs, names, rest, ⟨⟨entries, listed, described⟩, lists, allowed, named⟩,
      read, rfl⟩
    exact ⟨entries, listed, files, described, subdirs, lists, allowed, names, named, rest, read,
      rfl⟩

end Step

section Fits

/-- A directory that waits fits a tree if its entry describes the tree and the tree goes no
deeper than allowed. Without subdirectories it is read at every depth. -/
structure Fits (options : ReadOptions) (dir : Waiting) (tree : Dir) : Prop where
  describes : dir.entry.DescribesDir options.escaped tree
  within : (dir.depth + tree.depth : Int) ≤ max options.maxDepth dir.depth

theorem named_of_mem_below {found : Waiting} {subdirs : List Value} {names : List Text}
    (named : List.Forall₂ Value.Named subdirs names) (member : found ∈ below dir subdirs names) :
    found.entry.Named found.name := by
  induction named with
  | nil => cases member
  | cons first _ ih =>
    rcases List.mem_cons.mp member with rfl | later
    · exact first
    · exact ih later

private theorem forall₂_fits_below_iff {subdirs : List Value} {names : List Text} {trees : List Dir}
    (named : List.Forall₂ Value.Named subdirs names) :
    List.Forall₂ (Fits options) (below dir subdirs names) trees ↔
      List.Forall₂ (Value.DescribesDir options.escaped) subdirs trees ∧
        ∀ tree ∈ trees,
          (dir.depth + 1 + tree.depth : Int) ≤ max options.maxDepth (dir.depth + 1) := by
  induction named generalizing trees with
  | nil =>
    change List.Forall₂ _ [] _ ↔ _
    rw [List.forall₂_nil_left_iff, List.forall₂_nil_left_iff]
    constructor
    · rintro rfl
      exact ⟨rfl, fun _ member => absurd member List.not_mem_nil⟩
    · exact And.left
  | cons first _ ih =>
    change List.Forall₂ _ (_ :: below dir _ _) _ ↔ _
    simp only [List.forall₂_cons_left_iff, ih]
    constructor
    · rintro ⟨tree, others, ⟨describes, within⟩, ⟨describeOthers, othersWithin⟩, rfl⟩
      exact ⟨⟨tree, others, describes, describeOthers, rfl⟩,
        List.forall_mem_cons.mpr ⟨within, othersWithin⟩⟩
    · rintro ⟨⟨tree, others, describes, describeOthers, rfl⟩, eachWithin⟩
      obtain ⟨within, othersWithin⟩ := List.forall_mem_cons.mp eachWithin
      exact ⟨tree, others, ⟨describes, within⟩, ⟨describeOthers, othersWithin⟩, rfl⟩

theorem fits_mk_iff {files : List File} {dirs : List Dir} (named : dir.entry.Named dir.name) :
    Fits options dir ⟨dir.name, files, dirs⟩ ↔
      ∃ subdirs names, Opens options dir files subdirs names ∧
        List.Forall₂ (Fits options) (below dir subdirs names) dirs := by
  constructor
  · rintro ⟨@⟨_, _, entries, subdirs, _, _, _, fileList, eachFile, dirList, eachDir⟩, within⟩
    obtain ⟨allowed, lower⟩ := Dir.depth_within_iff.mp within
    have subdirsNamed := Value.forall₂_named_of_describesDir eachDir
    rw [← eq_nil_iff_of_forall₂ eachDir] at allowed
    exact ⟨subdirs, _, ⟨⟨entries, fileList, eachFile⟩, dirList, allowed, subdirsNamed⟩,
      (forall₂_fits_below_iff subdirsNamed).mpr ⟨eachDir, lower⟩⟩
  · rintro ⟨subdirs, names, ⟨⟨entries, fileList, eachFile⟩, dirList, allowed, subdirsNamed⟩, fit⟩
    obtain ⟨eachDir, lower⟩ := (forall₂_fits_below_iff subdirsNamed).mp fit
    rw [eq_nil_iff_of_forall₂ eachDir] at allowed
    exact ⟨.dir named fileList eachFile dirList eachDir,
      Dir.depth_within_iff.mpr ⟨allowed, lower⟩⟩

theorem Opens.length_eq {files : List File} {subdirs : List Value} {names : List Text}
    {dirs : List Dir} (opens : Opens options dir files subdirs names)
    (fit : List.Forall₂ (Fits options) (below dir subdirs names) dirs) :
    subdirs.length = dirs.length :=
  ((forall₂_fits_below_iff opens.named).mp fit).1.length_eq

end Fits

/-- Reading directories that wait gives the rows of the trees that they fit, one tree after the
other. -/
theorem readFrom_eq_ok_iff {waiting : List Waiting} {rows : List Row}
    (named : ∀ dir ∈ waiting, dir.entry.Named dir.name) :
    readFrom options waiting = .ok rows ↔
      ∃ trees, List.Forall₂ (Fits options) waiting trees ∧ Dir.preorderAll trees = rows := by
  induction waiting using readFrom.induct generalizing rows with
  | case1 =>
    rw [readFrom]
    simp [Dir.preorderAll, eq_comm]
  | case2 dir waiting ih =>
    obtain ⟨dirNamed, waitingNamed⟩ := List.forall_mem_cons.mp named
    -- What is read next are the subdirectories, with all that waited already behind them.
    have goesOn {files : List File} {subdirs : List Value} {names : List Text} {rest : List Row}
        (opens : Opens options dir files subdirs names) :
        readFrom options (below dir subdirs names ++ waiting) = .ok rest ↔
          ∃ trees, List.Forall₂ (Fits options) (below dir subdirs names ++ waiting) trees ∧
            Dir.preorderAll trees = rest := by
      refine ih subdirs (children_eq_ok_iff.mpr opens.lists) names ?_
      intro found member
      rcases List.mem_append.mp member with opened | later
      · exact named_of_mem_below opens.named opened
      · exact waitingNamed found later
    rw [readFrom_cons_eq_ok_iff]
    constructor
    · rintro ⟨files, subdirs, names, rest, opens, read, rfl⟩
      obtain ⟨_, fits, rfl⟩ := (goesOn opens).mp read
      obtain ⟨dirs, others, fitDirs, fitOthers, rfl⟩ := forall₂_append_left_iff.mp fits
      have fitTree := (fits_mk_iff dirNamed).mpr ⟨subdirs, names, opens, fitDirs⟩
      refine ⟨_, .cons fitTree fitOthers, ?_⟩
      rw [Dir.preorderAll_cons_mk, opens.length_eq fitDirs]
    · rintro ⟨_, fits, rfl⟩
      obtain ⟨⟨name, files, dirs⟩, others, fitTree, fitOthers, rfl⟩ :=
        List.forall₂_cons_left_iff.mp fits
      obtain rfl : dir.name = name := by
        have described : dir.entry.get? "name" = some (.text name) := fitTree.describes.named
        rw [dirNamed] at described
        cases described
        rfl
      obtain ⟨subdirs, names, opens, fitDirs⟩ := (fits_mk_iff dirNamed).mp fitTree
      have fitBoth := forall₂_append_left_iff.mpr ⟨dirs, others, fitDirs, fitOthers, rfl⟩
      refine ⟨files, subdirs, names, _, opens, (goesOn opens).mpr ⟨_, fitBoth, rfl⟩, ?_⟩
      rw [Dir.preorderAll_cons_mk, opens.length_eq fitDirs]

end TreeReader

/-- A value is read as a tree exactly if it describes that tree and the directories below the
root nest no deeper than allowed. -/
theorem Dir.ofValue_eq_ok_iff {options : ReadOptions} {value : Value} {tree : Dir} :
    Dir.ofValue options value = .ok tree ↔
      value.DescribesDir options.escaped tree ∧ (tree.depth : Int) ≤ max options.maxDepth 0 := by
  have alone {name : Text} (named : value.Named name) {rows : List Row} :
      TreeReader.readFrom options [⟨value, name, [], 0⟩] = .ok rows ↔
        ∃ trees, List.Forall₂ (TreeReader.Fits options) [⟨value, name, [], 0⟩] trees ∧
          preorderAll trees = rows :=
    TreeReader.readFrom_eq_ok_iff (List.forall_mem_singleton.mpr named)
  simp only [ofValue, bind_eq_ok_iff, pure_eq_ok_iff, TreeReader.requireName_eq_ok_iff]
  constructor
  · rintro ⟨name, named, rows, read, rfl⟩
    obtain ⟨_, fits, rfl⟩ := (alone named).mp read
    obtain ⟨tree, _, ⟨describes, within⟩, none, rfl⟩ := List.forall₂_cons_left_iff.mp fits
    cases none
    rw [ofPreorder_preorderAll, List.headD_cons]
    refine ⟨describes, ?_⟩
    simpa using within
  · rintro ⟨describes, within⟩
    have fits : TreeReader.Fits options ⟨value, tree.name, [], 0⟩ tree :=
      ⟨describes, by simpa using within⟩
    refine ⟨tree.name, describes.named, _,
      (alone describes.named).mpr ⟨[tree], .cons fits .nil, rfl⟩, ?_⟩
    rw [ofPreorder_preorderAll, List.headD_cons]

end AddonExchange
