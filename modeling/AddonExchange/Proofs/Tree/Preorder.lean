import AddonExchange.Proofs.Tree.Navigation
import AddonExchange.Tree.Preorder

namespace AddonExchange.Dir

theorem preorderAll_append (first second : List Dir) :
    preorderAll (first ++ second) = preorderAll first ++ preorderAll second := by
  induction first with
  | nil => rfl
  | cons dir rest ih => rw [List.cons_append, preorderAll, preorderAll, ih, List.append_assoc]

theorem preorderAll_cons_mk (name : Text) (files : List File) (dirs others : List Dir) :
    preorderAll (⟨name, files, dirs⟩ :: others) =
      ⟨name, files, dirs.length⟩ :: preorderAll (dirs ++ others) := by
  rw [preorderAll, preorder, List.cons_append, preorderAll_append]

private theorem ofPreorder_preorderAll_append {dirs : List Dir} (rows : List Row)
    (each : ∀ dir ∈ dirs, ∀ rows, ofPreorder (dir.preorder ++ rows) = dir :: ofPreorder rows) :
    ofPreorder (preorderAll dirs ++ rows) = dirs ++ ofPreorder rows := by
  induction dirs with
  | nil => rfl
  | cons dir rest ih =>
    rw [preorderAll, List.append_assoc, each dir List.mem_cons_self,
      ih fun child member => each child (List.mem_cons_of_mem dir member)]
    rfl

private theorem ofPreorder_preorder_append (dir : Dir) (rows : List Row) :
    ofPreorder (dir.preorder ++ rows) = dir :: ofPreorder rows := by
  induction dir generalizing rows with
  | node name files dirs ih =>
    have settled := ofPreorder_preorderAll_append rows ih
    rw [preorder, List.cons_append]
    change settle _ (ofPreorder _) = _
    rw [settled]
    simp [settle]

/-- The rows of trees settle to these trees. -/
theorem ofPreorder_preorderAll (dirs : List Dir) : ofPreorder (preorderAll dirs) = dirs := by
  have settled := ofPreorder_preorderAll_append [] fun dir (_ : dir ∈ dirs) =>
    dir.ofPreorder_preorder_append
  simpa [ofPreorder] using settled

end AddonExchange.Dir
