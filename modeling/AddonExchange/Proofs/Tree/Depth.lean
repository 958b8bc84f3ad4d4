import AddonExchange.Proofs.Tree.MapFiles
import Mathlib.Order.Nat

namespace AddonExchange.Dir

mutual

/-- How many levels of directories there are below the root of a tree. -/
def depth : Dir → Nat
  | ⟨_, _, dirs⟩ => levels dirs

/-- How many levels trees make up when they stand below one directory. -/
def levels : List Dir → Nat
  | [] => 0
  | dir :: rest => max (dir.depth + 1) (levels rest)

end

variable {dir child : Dir} {bound : Nat}

theorem levels_le_iff (dirs : List Dir) (bound : Nat) :
    levels dirs ≤ bound ↔ ∀ dir ∈ dirs, dir.depth < bound := by
  induction dirs with
  | nil => simp [levels]
  | cons dir rest ih => rw [levels, Nat.max_le, ih, List.forall_mem_cons, Nat.succ_le_iff]

theorem depth_le_iff : dir.depth ≤ bound ↔ ∀ child ∈ dir.dirs, child.depth < bound := by
  cases dir
  rw [depth, levels_le_iff]

theorem depth_lt_of_mem (member : child ∈ dir.dirs) : child.depth < dir.depth :=
  depth_le_iff.mp (Nat.le_refl dir.depth) child member

theorem depth_mapFiles (change : File → File) (dir : Dir) :
    (dir.mapFiles change).depth = dir.depth := by
  induction dir with
  | node name files dirs ih =>
    apply eq_of_forall_ge_iff
    intro bound
    rw [depth_le_iff, depth_le_iff, mapFiles_dirs, List.forall_mem_map]
    refine forall₂_congr fun child member => ?_
    rw [ih child member]

end AddonExchange.Dir
