import AddonExchange.Proofs.Sync.Convergence

namespace AddonExchange

section Keyed

variable {α β : Type} [BEq β] [LawfulBEq β] {key : α → β} {items : List α}

private theorem filter_key_of_nodup (distinct : (items.map key).Nodup) (sought : β) :
    items.filter (fun item => key item == sought) =
      (items.find? fun item => key item == sought).toList := by
  induction items with
  | nil => rfl
  | cons item rest ih =>
    obtain ⟨fresh, restDistinct⟩ := List.nodup_cons.mp distinct
    have later := ih restDistinct
    by_cases same : key item = sought
    · subst same
      rw [find?_eq_none_of_notMem fresh] at later
      simp [later]
    · simpa [same] using later

end Keyed

namespace Dir

/-- All files of a name in all the directories that a path names. -/
def lookupAll (tree : Dir) : List Text → Text → List File
  | [], name => tree.files.filter fun file => file.name == name
  | first :: rest, name =>
    (tree.dirs.filter fun child => child.name == first).flatMap fun child =>
      child.lookupAll rest name

private theorem lookupAll_eq_toList {tree : Dir} (unique : tree.SiblingUnique) (path : List Text)
    (name : Text) : tree.lookupAll path name = (tree.lookup? path name).toList := by
  induction path generalizing tree with
  | nil => exact filter_key_of_nodup unique.files name
  | cons first rest ih =>
    rw [lookupAll, lookup?_cons, filter_key_of_nodup unique.dirs first]
    change (tree.findDir? first).toList.flatMap _ = _
    cases found : tree.findDir? first with
    | none => rfl
    | some child =>
      have childUnique := unique.child (findDir?_mem found)
      simp [ih childUnique]

private theorem lookup?_name {tree : Dir} {path : List Text} {name : Text} {file : File}
    (found : tree.lookup? path name = some file) : file.name = name := by
  obtain ⟨_, _, _, named⟩ := at_of_lookup? found
  exact named

section Pack

variable {source target : Dir}

private theorem lookupAll_missing {withContents : Bool} (sourceUnique : source.SiblingUnique)
    (targetUnique : target.SiblingUnique) (path : List Text) (name : Text) :
    (source.missing withContents target).lookupAll path name =
      match source.lookup? path name, target.lookup? path name with
      | _, none => []
      | none, some new => [new.listed withContents]
      | some old, some new =>
        if old.hashOf = new.hashOf then [] else [new.listed withContents] := by
  rw [lookupAll_eq_toList targetUnique.missing, lookup?_missing sourceUnique targetUnique, hashAt?]
  cases target.lookup? path name with
  | none => rfl
  | some new =>
    cases source.lookup? path name with
    | none => simp
    | some old =>
      by_cases same : old.hashOf = new.hashOf
      · simp [same]
      · simp [same]

/-- A pack lists a file under the path and the name that lead to it, once for each list: among the
removals, by its name alone, if the source has it and the target does not have it with that hash;
among the additions, with contents and hash, if the target has it and the source does not have it
with that hash. -/
theorem lookupAll_between (sourceUnique : source.SiblingUnique)
    (targetUnique : target.SiblingUnique) (path : List Text) (name : Text) :
    let pack := UpdatePack.between source target
    (pack.removals.lookupAll path name, pack.additions.lookupAll path name) =
      match source.lookup? path name, target.lookup? path name with
      | none, none => ([], [])
      | some _, none => ([⟨name, none, none⟩], [])
      | none, some new => ([], [⟨name, new.contents, some new.hashOf⟩])
      | some old, some new =>
        if old.hashOf = new.hashOf then ([], [])
        else ([⟨name, none, none⟩], [⟨name, new.contents, some new.hashOf⟩]) := by
  intro pack
  have removed : pack.removals = target.missing false source :=
    UpdatePack.removals_between source target
  have added : pack.additions = source.missing true target :=
    UpdatePack.additions_between source target
  rw [removed, added, lookupAll_missing targetUnique sourceUnique,
    lookupAll_missing sourceUnique targetUnique]
  cases former : source.lookup? path name with
  | none =>
    cases wanted : target.lookup? path name with
    | none => rfl
    | some new =>
      obtain rfl := lookup?_name wanted
      rfl
  | some old =>
    obtain rfl := lookup?_name former
    cases wanted : target.lookup? path old.name with
    | none => rfl
    | some new =>
      have sameName : new.name = old.name := lookup?_name wanted
      by_cases same : old.hashOf = new.hashOf
      · simp [same]
      · simp [same, Ne.symm same, File.listed, sameName]

theorem lookupAll_between_release :
    oldRelease.SiblingUnique ∧ newRelease.SiblingUnique ∧
      let pack := UpdatePack.between oldRelease newRelease
      let changed : File := ⟨"main.cfg", some [0x63], some (contentHash [0x63])⟩
      (pack.removals.lookupAll [] "main.cfg", pack.additions.lookupAll [] "main.cfg") =
          ([⟨"main.cfg", none, none⟩], [changed]) ∧
        (pack.removals.lookupAll ["old"] "gone", pack.additions.lookupAll ["old"] "gone") =
          ([⟨"gone", none, none⟩], []) ∧
        (pack.removals.lookupAll [] "kept.cfg", pack.additions.lookupAll [] "kept.cfg") =
          ([], []) := by
  have oldUnique : oldRelease.SiblingUnique := by decide
  have newUnique : newRelease.SiblingUnique := by decide
  have listed := lookupAll_between oldUnique newUnique
  refine ⟨oldUnique, newUnique, ?_, ?_, ?_⟩
  · exact (listed [] "main.cfg").trans (by decide +kernel)
  · exact (listed ["old"] "gone").trans (by decide +kernel)
  · exact (listed [] "kept.cfg").trans (by decide +kernel)

end Pack

end Dir

end AddonExchange
