import AddonExchange.Proofs.Sync.Containment
import AddonExchange.Proofs.Sync.Removal
import AddonExchange.Proofs.Tree.Copy

namespace AddonExchange.Dir

variable {dir additions : Dir} {files : List File}

@[simp]
theorem add_name (dir additions : Dir) : (dir.add additions).name = dir.name := by
  rw [add_eq_follow, name_follow name_putFiles]

theorem add_files (dir additions : Dir) :
    (dir.add additions).files = additions.files.foldl putFile dir.files := by
  rw [add_eq_follow, follow_eq, files_followAll, putFiles]

section Files

private theorem find?_putFile (files : List File) (file : File) (sought : Text) :
    (putFile files file).find? (fun other => other.name == sought) =
      if sought = file.name then some file else files.find? fun other => other.name == sought := by
  induction files with
  | nil =>
    by_cases here : sought = file.name
    · simp [putFile, here]
    · have other : file.name ≠ sought := Ne.symm here
      simp [putFile, here, other]
  | cons held rest ih =>
    rw [putFile]
    by_cases same : held.name = file.name
    · rw [if_pos same]
      by_cases here : sought = file.name
      · simp [here]
      · have other : file.name ≠ sought := Ne.symm here
        simp [same, here, other]
    · rw [if_neg same]
      by_cases here : held.name = sought
      · subst here
        simp [same]
      · simp [here, ih]

private theorem find?_foldl_putFile {added : List File} (distinct : (added.map File.name).Nodup)
    (files : List File) (sought : Text) :
    (added.foldl putFile files).find? (fun file => file.name == sought) =
      (added.find? fun file => file.name == sought).or
        (files.find? fun file => file.name == sought) := by
  induction added generalizing files with
  | nil => simp
  | cons file rest ih =>
    obtain ⟨fresh, restDistinct⟩ := List.nodup_cons.mp distinct
    rw [List.foldl_cons, ih restDistinct, find?_putFile]
    by_cases here : sought = file.name
    · subst here
      simp [find?_eq_none_of_notMem fresh]
    · have other : file.name ≠ sought := Ne.symm here
      simp [here, other]

private theorem mem_putFile {file other : File} (member : other ∈ putFile files file) :
    other ∈ files ∨ other = file := by
  induction files with
  | nil => exact Or.inr (List.mem_singleton.mp member)
  | cons held rest ih =>
    rw [putFile] at member
    by_cases same : held.name = file.name
    · rw [if_pos same] at member
      rcases List.mem_cons.mp member with rfl | later
      · exact Or.inr rfl
      · exact Or.inl (List.mem_cons_of_mem held later)
    · rw [if_neg same] at member
      rcases List.mem_cons.mp member with rfl | later
      · exact Or.inl List.mem_cons_self
      · exact (ih later).imp_left (List.mem_cons_of_mem held)

theorem mem_foldl_putFile {added : List File} {file : File}
    (member : file ∈ added.foldl putFile files) : file ∈ files ∨ file ∈ added := by
  induction added generalizing files with
  | nil => exact Or.inl member
  | cons first rest ih =>
    rcases ih member with earlier | later
    · rcases mem_putFile earlier with kept | rfl
      · exact Or.inl kept
      · exact Or.inr List.mem_cons_self
    · exact Or.inr (List.mem_cons_of_mem first later)

theorem map_name_putFile (files : List File) (file : File) :
    (putFile files file).map File.name = files.map File.name ∨
      file.name ∉ files.map File.name ∧
        (putFile files file).map File.name = files.map File.name ++ [file.name] := by
  induction files with
  | nil => exact Or.inr ⟨List.not_mem_nil, rfl⟩
  | cons held rest ih =>
    rw [putFile]
    by_cases same : held.name = file.name
    · left
      simp [same]
    · have other : file.name ≠ held.name := Ne.symm same
      rw [if_neg same, List.map_cons, List.map_cons]
      rcases ih with kept | ⟨fresh, added⟩
      · left
        rw [kept]
      · right
        refine ⟨?_, ?_⟩
        · simpa [other] using fresh
        · rw [added, List.cons_append]

private theorem nodup_foldl_putFile (added : List File) (distinct : (files.map File.name).Nodup) :
    ((added.foldl putFile files).map File.name).Nodup := by
  induction added generalizing files with
  | nil => exact distinct
  | cons file rest ih =>
    refine ih ?_
    rcases map_name_putFile files file with kept | ⟨fresh, extended⟩
    · rw [kept]
      exact distinct
    · rw [extended, ← List.concat_eq_append]
      exact distinct.concat fresh

end Files

section Dirs

private theorem find?_ensureDir (dirs : List Dir) (name sought : Text) :
    (ensureDir dirs name).find? (fun child => child.name == sought) =
      (dirs.find? fun child => child.name == sought).or
        (if sought = name then some ⟨name, [], []⟩ else none) := by
  rw [ensureDir]
  by_cases here : sought = name
  · subst here
    split
    · rename_i there
      obtain ⟨child, member, named⟩ := List.any_eq_true.mp there
      cases found : dirs.find? fun child => child.name == sought with
      | none => exact absurd named (List.find?_eq_none.mp found child member)
      | some child => rfl
    · simp
  · have other : name ≠ sought := Ne.symm here
    split
    · simp
    · simp [other]

private theorem find?_foldl_ensureDir (names : List Text) (dirs : List Dir) (sought : Text) :
    (names.foldl ensureDir dirs).find? (fun child => child.name == sought) =
      (dirs.find? fun child => child.name == sought).or
        (if names.contains sought then some ⟨sought, [], []⟩ else none) := by
  induction names generalizing dirs with
  | nil => simp
  | cons name rest ih =>
    rw [List.foldl_cons, ih, find?_ensureDir, Option.or_assoc]
    by_cases here : sought = name
    · subst here
      simp
    · simp [here]

theorem mem_foldl_ensureDir {names : List Text} {dirs : List Dir} {child : Dir}
    (member : child ∈ names.foldl ensureDir dirs) :
    child ∈ dirs ∨ ∃ name ∈ names, child = ⟨name, [], []⟩ := by
  induction names generalizing dirs with
  | nil => exact Or.inl member
  | cons name rest ih =>
    rcases ih member with kept | ⟨other, within, made⟩
    · rw [ensureDir] at kept
      split at kept
      · exact Or.inl kept
      · rcases List.mem_append.mp kept with kept | made
        · exact Or.inl kept
        · exact Or.inr ⟨name, List.mem_cons_self, List.mem_singleton.mp made⟩
    · exact Or.inr ⟨other, List.mem_cons_of_mem name within, made⟩

theorem SiblingUnique.ensureDir (unique : dir.SiblingUnique) (name : Text) :
    SiblingUnique { dir with dirs := Dir.ensureDir dir.dirs name } := by
  obtain ⟨own, files, dirs⟩ := dir
  rw [Dir.ensureDir]
  split
  · exact unique
  · rename_i absent
    have fresh : name ∉ dirs.map Dir.name := by
      simpa using absent
    rw [siblingUnique_iff]
    refine ⟨⟨unique.files, ?_⟩, ?_⟩
    · rw [List.map_append, List.map_singleton, ← List.concat_eq_append]
      exact unique.dirs.concat fresh
    · intro child member
      rcases List.mem_append.mp member with kept | made
      · exact unique.child kept
      · rw [List.mem_singleton.mp made]
        exact siblingUnique_empty name

private theorem SiblingUnique.foldl_ensureDir (unique : dir.SiblingUnique) (names : List Text) :
    SiblingUnique { dir with dirs := names.foldl Dir.ensureDir dir.dirs } := by
  induction names generalizing dir with
  | nil =>
    cases dir
    exact unique
  | cons name rest ih => exact ih (unique.ensureDir name)

/-- A subdirectory of the additions is added to its counterpart, which is made if there is
none. -/
theorem findDir?_add (dir : Dir) (additionsUnique : additions.SiblingUnique) (name : Text) :
    (dir.add additions).findDir? name =
      (additions.findDir? name).elim (dir.findDir? name)
        fun list => some ((dir.counterpart name).add list) := by
  have listed : (additions.dirs.map Dir.name).contains name =
      (additions.dirs.find? fun list => list.name == name).isSome := by
    rw [Bool.eq_iff_iff]
    simp
  simp only [add_eq_follow]
  rw [follow_eq, findDir?_followAll name_putFiles _ additionsUnique.dirs]
  simp only [findDir?, counterpart, putFiles, find?_foldl_ensureDir, listed]
  cases additions.dirs.find? fun list => list.name == name with
  | none => simp
  | some list => cases dir.dirs.find? fun child => child.name == name <;> simp

end Dirs

theorem findFile?_add (dir : Dir) (additionsUnique : additions.SiblingUnique) (name : Text) :
    (dir.add additions).findFile? name =
      (additions.findFile? name).or (dir.findFile? name) := by
  rw [findFile?, add_files, find?_foldl_putFile additionsUnique.files]
  rfl

theorem lookup?_add (dir : Dir) (additionsUnique : additions.SiblingUnique) (path : List Text)
    (name : Text) :
    (dir.add additions).lookup? path name =
      (additions.lookup? path name).or (dir.lookup? path name) := by
  induction path generalizing dir additions with
  | nil => exact findFile?_add dir additionsUnique name
  | cons first rest ih =>
    rw [← lookup?_counterpart dir, lookup?_cons, lookup?_cons, findDir?_add dir additionsUnique]
    cases listed : additions.findDir? first with
    | none =>
      rw [lookup?_counterpart, lookup?_cons]
      rfl
    | some list => exact ih (dir.counterpart first) (additionsUnique.child (findDir?_mem listed))

theorem SiblingUnique.add (unique : dir.SiblingUnique) (additions : Dir) :
    (dir.add additions).SiblingUnique := by
  rw [add_eq_follow]
  refine unique.follow name_putFiles (fun list dir unique => ?_) additions
  have made := unique.foldl_ensureDir (list.dirs.map Dir.name)
  rw [siblingUnique_iff]
  exact ⟨⟨nodup_foldl_putFile list.files unique.files, made.dirs⟩, fun _ => made.child⟩

section Apply

variable {pack : UpdatePack}

theorem apply_eq (dir : Dir) (pack : UpdatePack) :
    dir.apply pack = (dir.remove pack.removals).add pack.additions := by
  rw [Dir.apply, copy_eq]

theorem SiblingUnique.apply (unique : dir.SiblingUnique) (pack : UpdatePack) :
    (dir.apply pack).SiblingUnique := by
  rw [apply_eq]
  exact (unique.remove pack.removals).add pack.additions

/-- Under each path the additions come first, then the removals, then what was there. -/
theorem lookup?_apply (unique : dir.SiblingUnique)
    (removalsUnique : pack.removals.SiblingUnique)
    (additionsUnique : pack.additions.SiblingUnique) (path : List Text) (name : Text) :
    (dir.apply pack).lookup? path name =
      (pack.additions.lookup? path name).or
        (if (pack.removals.lookup? path name).isSome then none else dir.lookup? path name) := by
  rw [apply_eq, lookup?_add _ additionsUnique, lookup?_remove unique removalsUnique]

end Apply

end AddonExchange.Dir
