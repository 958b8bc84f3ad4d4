import AddonExchange.Proofs.Sync.Order

namespace AddonExchange.Dir

theorem remove_nothing (dir : Dir) (name : Text) : dir.remove ⟨name, [], []⟩ = dir := by
  rw [remove_eq_follow]
  cases dir
  rfl

theorem add_nothing (dir : Dir) (name : Text) : dir.add ⟨name, [], []⟩ = dir := by
  rw [add_eq_follow]
  cases dir
  rfl

/-- A pack with nothing in it leaves the copy as it is made, which is equal to the tree. -/
theorem apply_of_isEmpty (dir : Dir) {pack : UpdatePack} (nothing : pack.isEmpty = true) :
    dir.apply pack = dir := by
  obtain ⟨noRemovals, noAdditions⟩ := Bool.and_eq_true_iff.mp nothing
  obtain ⟨removed, removals⟩ := exists_name_of_isEmpty noRemovals
  obtain ⟨added, additions⟩ := exists_name_of_isEmpty noAdditions
  rw [apply_eq, removals, additions, remove_nothing, add_nothing]

/-- A tree is left exactly as it is by a pack with nothing in it, and therefore by the pack to any
tree that it contains and that contains it. Where siblings are distinct, no other update leaves a
tree as it is. -/
theorem up_to_date_tree_unchanged :
    (∀ (tree : Dir) (pack : UpdatePack), pack.isEmpty = true → tree.apply pack = tree) ∧
      (∀ source target : Dir, source.contains target = true → target.contains source = true →
        source.apply (UpdatePack.between source target) = source) ∧
      ∀ source target : Dir, source.SiblingUnique → target.SiblingUnique →
        source.apply (UpdatePack.between source target) = source →
          source.contains target = true ∧ target.contains source = true := by
  refine ⟨?_, ?_, ?_⟩
  · intro tree pack nothing
    exact apply_of_isEmpty tree nothing
  · intro source target holds held
    exact apply_of_isEmpty source (UpdatePack.isEmpty_between_iff.mpr ⟨holds, held⟩)
  · intro source target sourceUnique targetUnique unchanged
    have sync := (InSync.refl sourceUnique).step targetUnique
    rw [unchanged] at sync
    exact ⟨sync.holds, sync.held⟩

/-- A copy of the server with each of its files, some of them twice, in another order and with
empty directories that the server lacks. -/
def patchedMirror : Dir :=
  ⟨"patched", [⟨"main.cfg", some [0x61], some "second"⟩, ⟨"main.cfg", none, some "first"⟩,
      ⟨"main.cfg", none, some "second"⟩],
    [⟨"drafts", [], [⟨"maps", [], []⟩]⟩, ⟨"maps", [⟨"first.map", none, some "map"⟩], []⟩,
      ⟨"maps", [⟨"first.map", some [0x62], some "map"⟩], [⟨"old", [], []⟩]⟩]⟩

theorem up_to_date_tree_unchanged_patchedMirror :
    let nothing : UpdatePack := ⟨⟨"gone", [], []⟩, ⟨"new", [], []⟩⟩
    (nothing.isEmpty = true ∧ patchedMirror.apply nothing = patchedMirror) ∧
      (patchedMirror.contains mirroredServer = true ∧
        mirroredServer.contains patchedMirror = true ∧
        patchedMirror.apply (UpdatePack.between patchedMirror mirroredServer) = patchedMirror) ∧
      installedCopy.SiblingUnique ∧
        installedCopy.apply (UpdatePack.between installedCopy installedCopy) = installedCopy ∧
        installedCopy.contains installedCopy = true := by
  intro nothing
  obtain ⟨emptyPack, upToDate, onlyThese⟩ := up_to_date_tree_unchanged
  have holds : patchedMirror.contains mirroredServer = true := by decide +kernel
  have held : mirroredServer.contains patchedMirror = true := by decide +kernel
  have unique : installedCopy.SiblingUnique := by decide
  have self : installedCopy.contains installedCopy = true := (InSync.refl unique).holds
  have unchanged := upToDate installedCopy installedCopy self self
  exact ⟨⟨rfl, emptyPack patchedMirror nothing rfl⟩,
    ⟨holds, held, upToDate patchedMirror mirroredServer holds held⟩,
    unique, unchanged, (onlyThese installedCopy installedCopy unique unique unchanged).1⟩

end AddonExchange.Dir
