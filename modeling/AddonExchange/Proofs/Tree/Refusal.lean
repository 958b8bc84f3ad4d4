import AddonExchange.Proofs.Tree.Fault
import AddonExchange.Proofs.Tree.Reading

/-! Which fault a value is refused for. A directory is checked before those below it: its files
one after the other, then the list of its subdirectories, their depth, and all of their names.
Only then are its subdirectories read, each with all that is below it before the next. The
reader keeps what is still to be read in one list; the fault that it meets first is the first in
this recursive order. -/

namespace AddonExchange

namespace TreeReader

variable {options : ReadOptions} {dir : Waiting} {fault : TreeFault}

section Faults

/-- Whether a directory that waits lists files, each described by its entry. -/
def ListsFiles (options : ReadOptions) (dir : Waiting) : Prop :=
  ∃ entries files, ListsEntries (dir.entry.get? "file") entries ∧
    List.Forall₂ (Value.DescribesFile options.escaped) entries files

/-- What is wrong with a directory itself, in the order in which it is checked. -/
inductive OpeningFault (options : ReadOptions) (dir : Waiting) : TreeFault → Prop where
  | fileList {fault : TreeFault} (wrong : ListFault dir.path "file" (dir.entry.get? "file") fault) :
      OpeningFault options dir fault
  | file {entries : List Value} {fault : TreeFault}
      (listed : ListsEntries (dir.entry.get? "file") entries)
      (first : FirstFault (fun entry => ∃ file, entry.DescribesFile options.escaped file)
        (FileFault dir.path) entries fault) :
      OpeningFault options dir fault
  | dirList {fault : TreeFault} (files : ListsFiles options dir)
      (wrong : ListFault dir.path "dir" (dir.entry.get? "dir") fault) :
      OpeningFault options dir fault
  | tooDeep {subdirs : List Value} (files : ListsFiles options dir)
      (lists : ListsEntries (dir.entry.get? "dir") subdirs) (nonempty : subdirs ≠ [])
      (reached : options.maxDepth ≤ dir.depth) :
      OpeningFault options dir ⟨dir.path, .tooDeep options.maxDepth⟩
  | name {subdirs : List Value} {fault : TreeFault} (files : ListsFiles options dir)
      (lists : ListsEntries (dir.entry.get? "dir") subdirs)
      (allowed : subdirs = [] ∨ (dir.depth : Int) < options.maxDepth)
      (first : FirstFault (fun entry => ∃ name, entry.Named name) (NameFault dir.path) subdirs
        fault) :
      OpeningFault options dir fault

/-- The first fault of a directory with all that is below it: its own, or else the first among its
subdirectories, of which those before the faulty one are read to their ends. -/
inductive DirFault (options : ReadOptions) : Waiting → TreeFault → Prop where
  | opening {dir : Waiting} {fault : TreeFault} (wrong : OpeningFault options dir fault) :
      DirFault options dir fault
  | deeper {dir : Waiting} {files : List File} {subdirs : List Value} {names : List Text}
      {fault : TreeFault} (opens : Opens options dir files subdirs names)
      (first : FirstFault (fun dir => ∃ tree, Fits options dir tree) (DirFault options)
        (below dir subdirs names) fault) :
      DirFault options dir fault

private theorem dirFault_iff :
    DirFault options dir fault ↔
      OpeningFault options dir fault ∨
        ∃ files subdirs names, Opens options dir files subdirs names ∧
          FirstFault (fun dir => ∃ tree, Fits options dir tree) (DirFault options)
            (below dir subdirs names) fault := by
  constructor
  · intro wrong
    cases wrong with
    | opening wrong => exact Or.inl wrong
    | deeper opens first => exact Or.inr ⟨_, _, _, opens, first⟩
  · rintro (wrong | ⟨files, subdirs, names, opens, first⟩)
    · exact .opening wrong
    · exact .deeper opens first

end Faults

section Run

/-- Reading fails at a directory for what is wrong with the directory itself, or later. -/
theorem readFrom_cons_eq_error_iff {waiting : List Waiting} :
    readFrom options (dir :: waiting) = .error fault ↔
      OpeningFault options dir fault ∨
        ∃ files subdirs names, Opens options dir files subdirs names ∧
          readFrom options (below dir subdirs names ++ waiting) = .error fault := by
  have refused_iff (subdirs : List Value) :
      (!subdirs.isEmpty && decide (options.maxDepth ≤ dir.depth)) = true ↔
        subdirs ≠ [] ∧ options.maxDepth ≤ dir.depth := by
    simp
  have allowed_iff (subdirs : List Value) :
      ¬ (subdirs ≠ [] ∧ options.maxDepth ≤ dir.depth) ↔
        subdirs = [] ∨ (dir.depth : Int) < options.maxDepth := by
    rw [not_and_or, not_ne_iff, Int.not_le]
  simp only [readFrom_cons, bind_eq_error_iff, pure_ne_error, and_false, exists_false, or_false,
    throw_if_eq_error_iff, refused_iff, allowed_iff, mapM_eq_ok_iff, mapM_eq_error_iff,
    children_eq_ok_iff, children_eq_error_iff, readFile_eq_ok_iff, readFile_eq_error_iff,
    requireName_eq_ok_iff, requireName_eq_error_iff]
  constructor
  · rintro (wrong | ⟨entries, listed, first | ⟨files, described, wrong | ⟨subdirs, lists,
      ⟨⟨nonempty, reached⟩, rfl⟩ | ⟨allowed, first | ⟨names, named, later⟩⟩⟩⟩⟩)
    · exact Or.inl (.fileList wrong)
    · exact Or.inl (.file listed first)
    · exact Or.inl (.dirList ⟨entries, files, listed, described⟩ wrong)
    · exact Or.inl (.tooDeep ⟨entries, files, listed, described⟩ lists nonempty reached)
    · exact Or.inl (.name ⟨entries, files, listed, described⟩ lists allowed first)
    · exact Or.inr ⟨files, subdirs, names, ⟨⟨entries, listed, described⟩, lists, allowed, named⟩,
        later⟩
  · rintro (wrong | ⟨files, subdirs, names, ⟨⟨entries, listed, described⟩, lists, allowed, named⟩,
      later⟩)
    · cases wrong with
      | fileList wrong => exact Or.inl wrong
      | file listed first => exact Or.inr ⟨_, listed, Or.inl first⟩
      | dirList files wrong =>
        obtain ⟨entries, files, listed, described⟩ := files
        exact Or.inr ⟨entries, listed, Or.inr ⟨files, described, Or.inl wrong⟩⟩
      | tooDeep files lists nonempty reached =>
        obtain ⟨entries, files, listed, described⟩ := files
        exact Or.inr ⟨entries, listed, Or.inr ⟨files, described, Or.inr ⟨_, lists,
          Or.inl ⟨⟨nonempty, reached⟩, rfl⟩⟩⟩⟩
      | name files lists allowed first =>
        obtain ⟨entries, files, listed, described⟩ := files
        exact Or.inr ⟨entries, listed, Or.inr ⟨files, described, Or.inr ⟨_, lists,
          Or.inr ⟨allowed, Or.inl first⟩⟩⟩⟩
    · exact Or.inr ⟨entries, listed, Or.inr ⟨files, described, Or.inr ⟨subdirs, lists,
        Or.inr ⟨allowed, Or.inr ⟨names, named, later⟩⟩⟩⟩⟩

private theorem exists_fits_iff (named : dir.entry.Named dir.name) :
    (∃ tree, Fits options dir tree) ↔
      ∃ files subdirs names, Opens options dir files subdirs names ∧
        ∀ found ∈ below dir subdirs names, ∃ tree, Fits options found tree := by
  simp only [forall_exists_iff_forall₂]
  constructor
  · rintro ⟨⟨name, files, dirs⟩, fits⟩
    obtain rfl : dir.name = name := by
      have described : dir.entry.get? "name" = some (.text name) := fits.describes.named
      rw [named] at described
      cases described
      rfl
    obtain ⟨subdirs, names, opens, fitDirs⟩ := (fits_mk_iff named).mp fits
    exact ⟨files, subdirs, names, opens, dirs, fitDirs⟩
  · rintro ⟨files, subdirs, names, opens, dirs, fitDirs⟩
    exact ⟨_, (fits_mk_iff named).mpr ⟨subdirs, names, opens, fitDirs⟩⟩

private theorem readFrom_eq_error_iff {waiting : List Waiting}
    (named : ∀ dir ∈ waiting, dir.entry.Named dir.name) :
    readFrom options waiting = .error fault ↔
      FirstFault (fun dir => ∃ tree, Fits options dir tree) (DirFault options) waiting fault := by
  induction waiting using readFrom.induct with
  | case1 =>
    rw [readFrom]
    simp [not_firstFault_nil]
  | case2 dir waiting ih =>
    obtain ⟨dirNamed, waitingNamed⟩ := List.forall_mem_cons.mp named
    -- What is read next are the subdirectories. A fault is the first among these, or all of them
    -- are read to their ends and it is the first of what waited already.
    have goesOn {files : List File} {subdirs : List Value} {names : List Text}
        (opens : Opens options dir files subdirs names) :
        readFrom options (below dir subdirs names ++ waiting) = .error fault ↔
          FirstFault (fun dir => ∃ tree, Fits options dir tree) (DirFault options)
              (below dir subdirs names) fault ∨
            (∀ found ∈ below dir subdirs names, ∃ tree, Fits options found tree) ∧
              FirstFault (fun dir => ∃ tree, Fits options dir tree) (DirFault options) waiting
                fault := by
      rw [ih subdirs (children_eq_ok_iff.mpr opens.lists) names, firstFault_append_iff]
      intro found member
      rcases List.mem_append.mp member with opened | later
      · exact named_of_mem_below opens.named opened
      · exact waitingNamed found later
    rw [readFrom_cons_eq_error_iff, firstFault_cons_iff, dirFault_iff, exists_fits_iff dirNamed]
    constructor
    · rintro (wrong | ⟨files, subdirs, names, opens, read⟩)
      · exact Or.inl (Or.inl wrong)
      · rcases (goesOn opens).mp read with first | ⟨fine, first⟩
        · exact Or.inl (Or.inr ⟨files, subdirs, names, opens, first⟩)
        · exact Or.inr ⟨⟨files, subdirs, names, opens, fine⟩, first⟩
    · rintro ((wrong | ⟨files, subdirs, names, opens, first⟩) |
        ⟨⟨files, subdirs, names, opens, fine⟩, first⟩)
      · exact Or.inl wrong
      · exact Or.inr ⟨files, subdirs, names, opens, (goesOn opens).mpr (Or.inl first)⟩
      · exact Or.inr ⟨files, subdirs, names, opens, (goesOn opens).mpr (Or.inr ⟨fine, first⟩)⟩

end Run

end TreeReader

/-- What a value is refused for: it gives no name for the root, or the root, which stands at the
empty path and at depth zero, has a fault in it. -/
inductive Value.RefusedFor (options : ReadOptions) (value : Value) : TreeFault → Prop where
  | root {fault : TreeFault} (wrong : NameFault [] value fault) : RefusedFor options value fault
  | inside {name : Text} {fault : TreeFault} (named : value.Named name)
      (wrong : TreeReader.DirFault options ⟨value, name, [], 0⟩ fault) :
      RefusedFor options value fault

namespace Dir

variable {options : ReadOptions} {value : Value}

/-- A value is refused exactly for the fault that comes first in the recursive order. -/
theorem ofValue_eq_error_iff {fault : TreeFault} :
    Dir.ofValue options value = .error fault ↔ value.RefusedFor options fault := by
  have alone {name : Text} (named : value.Named name) :
      TreeReader.readFrom options [⟨value, name, [], 0⟩] = .error fault ↔
        TreeReader.DirFault options ⟨value, name, [], 0⟩ fault := by
    rw [TreeReader.readFrom_eq_error_iff (List.forall_mem_singleton.mpr named),
      firstFault_singleton_iff]
  simp only [ofValue, bind_eq_error_iff, pure_ne_error, and_false, exists_false, or_false,
    TreeReader.requireName_eq_ok_iff, TreeReader.requireName_eq_error_iff]
  constructor
  · rintro (wrong | ⟨name, named, read⟩)
    · exact .root wrong
    · exact .inside named ((alone named).mp read)
  · intro wrong
    cases wrong with
    | root wrong => exact Or.inl wrong
    | inside named wrong => exact Or.inr ⟨_, named, (alone named).mpr wrong⟩

/-- The limit is checked before the names of the subdirectories that go beyond it. -/
example :
    Dir.ofValue ⟨false, 0⟩ (.map [("name", .text "addon"), ("dir", .list [.null])]) =
      .error ⟨[], .tooDeep 0⟩ :=
  ofValue_eq_error_iff.mpr (.inside rfl (.opening
    (.tooDeep ⟨[], [], .absent, .nil⟩ (.list [.null]) (by simp) (by simp))))

/-- Reading a value takes the steps of the recursion: it gives the tree that the value describes
if no directory of it lies too deep, and else the fault that comes first when every directory is
checked before its subdirectories and these are visited to their ends from left to right. -/
theorem ofValue_reads_recursively (options : ReadOptions) (value : Value) :
    (∀ tree, Dir.ofValue options value = .ok tree ↔
        value.DescribesDir options.escaped tree ∧ (tree.depth : Int) ≤ max options.maxDepth 0) ∧
      ∀ fault, Dir.ofValue options value = .error fault ↔ value.RefusedFor options fault :=
  ⟨fun _ => ofValue_eq_ok_iff, fun _ => ofValue_eq_error_iff⟩

end Dir

end AddonExchange
