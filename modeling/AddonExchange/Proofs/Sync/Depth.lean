import AddonExchange.Proofs.Sync.Convergence
import AddonExchange.Proofs.Sync.HashList
import AddonExchange.Proofs.Tree.Depth

namespace AddonExchange.Dir

variable {dir additions source target : Dir} {bound : Nat}

theorem depth_hashList (workers : Option Int) (dir : Dir) :
    (dir.hashList workers).depth = dir.depth := by
  rw [hashList_eq_mapFiles, depth_mapFiles]

theorem depth_missing_le (withContents : Bool) (source target : Dir) :
    (source.missing withContents target).depth ≤ target.depth := by
  induction target generalizing source with
  | node name files dirs ih =>
    rw [depth_le_iff]
    intro part member
    obtain ⟨child, childMember, rfl⟩ := mem_dirs_missing member
    have shallower : child.depth < depth ⟨name, files, dirs⟩ := depth_lt_of_mem childMember
    exact Nat.lt_of_le_of_lt (ih child childMember _) shallower

private theorem depth_changeDir_le {change : Dir → Dir} (bounded : dir.depth ≤ bound) (name : Text)
    (changed : ∀ child : Dir, child.depth < bound → (change child).depth < bound) :
    (dir.changeDir name change).depth ≤ bound := by
  rw [depth_le_iff] at bounded ⊢
  intro child member
  rcases mem_changeFirst member with kept | ⟨before, within, _, rfl⟩
  · exact bounded child kept
  · exact changed before (bounded before within)

private theorem depth_followAll_le {change : (list dir : Dir) → Dir} {lists : List Dir}
    (bounded : dir.depth ≤ bound)
    (keeps : ∀ list ∈ lists, ∀ child : Dir,
      child.depth < bound → (follow change list child).depth < bound) :
    (followAll change lists dir).depth ≤ bound := by
  induction lists with
  | nil => rwa [followAll]
  | cons list rest ih =>
    have later := ih fun other member => keeps other (List.mem_cons_of_mem list member)
    rw [followAll]
    exact depth_changeDir_le later list.name (keeps list List.mem_cons_self)

theorem depth_remove_le (dir removals : Dir) : (dir.remove removals).depth ≤ dir.depth := by
  simp only [remove_eq_follow]
  induction removals generalizing dir with
  | node name files lists ih =>
    have sameDepth : (dropFiles ⟨name, files, lists⟩ dir).depth = dir.depth := by
      cases dir
      rfl
    rw [follow_eq]
    exact depth_followAll_le (Nat.le_of_eq sameDepth) fun list member child shallow =>
      Nat.lt_of_le_of_lt (ih list member child) shallow

theorem depth_add_le (bounded : dir.depth ≤ bound) (additionsBounded : additions.depth ≤ bound) :
    (dir.add additions).depth ≤ bound := by
  rw [add_eq_follow]
  induction additions generalizing dir bound with
  | node name files lists ih =>
    have shallow := depth_le_iff.mp additionsBounded
    rw [follow_eq]
    refine depth_followAll_le ?_ ?_
    · rw [depth_le_iff]
      intro child member
      rcases mem_foldl_ensureDir member with kept | ⟨made, within, rfl⟩
      · exact depth_le_iff.mp bounded child kept
      · -- A directory is only made for a list that is itself below the bound.
        obtain ⟨list, listed, _⟩ := List.mem_map.mp within
        exact Nat.lt_of_le_of_lt (Nat.zero_le list.depth) (shallow list listed)
    · intro list listed child childShallow
      have listShallow := shallow list listed
      have added : (follow putFiles list child).depth ≤ bound - 1 :=
        ih list listed (by omega) (by omega)
      omega

/-- An update is no deeper than what it starts from or what it leads to. -/
theorem depth_apply_between_le {client : Dir} (clientBounded : client.depth ≤ bound)
    (targetBounded : target.depth ≤ bound) :
    (client.apply (UpdatePack.between source target)).depth ≤ bound := by
  rw [apply_eq, UpdatePack.additions_between]
  refine depth_add_le ?_ ?_
  · exact Nat.le_trans (depth_remove_le client _) clientBounded
  · exact Nat.le_trans (depth_missing_le true source target) targetBounded

end AddonExchange.Dir
