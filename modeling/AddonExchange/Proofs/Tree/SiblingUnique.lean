import AddonExchange.Proofs.Tree.Navigation
import Mathlib.Data.List.Nodup

namespace AddonExchange

section Keyed

variable {α β : Type} [BEq β] [LawfulBEq β] {key : α → β} {items : List α}

theorem find?_eq_some_iff_of_nodup (distinct : (items.map key).Nodup) {sought : β} {item : α} :
    items.find? (fun other => key other == sought) = some item ↔
      item ∈ items ∧ key item = sought := by
  constructor
  · intro found
    exact ⟨List.mem_of_find?_eq_some found, by simpa using List.find?_some found⟩
  · rintro ⟨member, rfl⟩
    cases found : items.find? (fun other => key other == key item) with
    | none =>
      have absent := List.find?_eq_none.mp found item member
      simp at absent
    | some other =>
      have same : key other = key item := by simpa using List.find?_some found
      rw [List.inj_on_of_nodup_map distinct (List.mem_of_find?_eq_some found) member same]

theorem find?_eq_none_of_notMem {sought : β} (fresh : sought ∉ items.map key) :
    items.find? (fun other => key other == sought) = none := by
  rw [List.find?_eq_none]
  intro other member same
  exact fresh (List.mem_map.mpr ⟨other, member, by simpa using same⟩)

/-- Where keys are distinct, a test that the first item of a key fails leaves none. -/
theorem find?_filter_of_nodup (distinct : (items.map key).Nodup) (keep : α → Bool) (sought : β) :
    (items.filter keep).find? (fun other => key other == sought) =
      (items.find? fun other => key other == sought).filter keep := by
  have kept : ((items.filter keep).map key).Nodup :=
    distinct.sublist (List.filter_sublist.map key)
  ext item
  rw [find?_eq_some_iff_of_nodup kept, Option.filter_eq_some_iff,
    find?_eq_some_iff_of_nodup distinct, List.mem_filter]
  exact and_right_comm

end Keyed

namespace Dir

/-- No two files and no two subdirectories of a directory share a name. -/
structure NamesDistinct (dir : Dir) : Prop where
  files : (dir.files.map File.name).Nodup
  dirs : (dir.dirs.map Dir.name).Nodup

instance : DecidablePred NamesDistinct := fun dir =>
  decidable_of_iff ((dir.files.map File.name).Nodup ∧ (dir.dirs.map Dir.name).Nodup)
    ⟨fun distinct => ⟨distinct.1, distinct.2⟩, fun distinct => ⟨distinct.files, distinct.dirs⟩⟩

/-- In no directory of a tree do two files or two subdirectories share a name. -/
def SiblingUnique (tree : Dir) : Prop := tree.Everywhere NamesDistinct

instance (tree : Dir) : Decidable tree.SiblingUnique :=
  inferInstanceAs (Decidable (tree.Everywhere NamesDistinct))

variable {tree : Dir}

theorem siblingUnique_iff (tree : Dir) :
    tree.SiblingUnique ↔
      tree.NamesDistinct ∧ ∀ child ∈ tree.dirs, child.SiblingUnique :=
  everywhere_iff tree

theorem SiblingUnique.files (unique : tree.SiblingUnique) :
    (tree.files.map File.name).Nodup :=
  unique.root.files

theorem SiblingUnique.dirs (unique : tree.SiblingUnique) : (tree.dirs.map Dir.name).Nodup :=
  unique.root.dirs

theorem SiblingUnique.child {child : Dir} (unique : tree.SiblingUnique)
    (member : child ∈ tree.dirs) : child.SiblingUnique :=
  Everywhere.child unique member

theorem siblingUnique_empty (name : Text) : SiblingUnique ⟨name, [], []⟩ := by
  rw [siblingUnique_iff]
  exact ⟨⟨List.nodup_nil, List.nodup_nil⟩, by simp⟩

private theorem findDir?_eq_some_iff (unique : tree.SiblingUnique) {name : Text} {child : Dir} :
    tree.findDir? name = some child ↔ child ∈ tree.dirs ∧ child.name = name :=
  find?_eq_some_iff_of_nodup unique.dirs

/-- Descending misses no directory. -/
theorem at_iff_descend? (unique : tree.SiblingUnique) {path : List Text} {target : Dir} :
    tree.At path target ↔ tree.descend? path = some target := by
  constructor
  · intro reached
    induction reached with
    | here => rfl
    | through member rest ih =>
      have found := (findDir?_eq_some_iff unique).mpr ⟨member, rfl⟩
      rw [descend?, found]
      exact ih (unique.child member)
  · exact at_of_descend?

/-- Looking up misses no file. -/
theorem lookup?_eq_some_iff (unique : tree.SiblingUnique) {path : List Text} {name : Text}
    {file : File} :
    tree.lookup? path name = some file ↔
      ∃ holder, tree.At path holder ∧ file ∈ holder.files ∧ file.name = name := by
  constructor
  · exact at_of_lookup?
  · rintro ⟨holder, reached, member, named⟩
    have distinct := (Everywhere.at unique reached).files
    rw [lookup?, (at_iff_descend? unique).mp reached, Option.bind_some]
    exact (find?_eq_some_iff_of_nodup distinct).mpr ⟨member, named⟩

end Dir

end AddonExchange
