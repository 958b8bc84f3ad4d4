import AddonExchange.Proofs.Tree.SiblingUnique

namespace AddonExchange.Dir

variable {change : Dir → Dir} {dirs : List Dir} {dir : Dir}

theorem map_name_changeFirst (keepsName : ∀ child, (change child).name = child.name)
    (name : Text) (dirs : List Dir) :
    (changeFirst name change dirs).map Dir.name = dirs.map Dir.name := by
  induction dirs with
  | nil => rfl
  | cons dir rest ih =>
    by_cases same : dir.name = name <;> simp [changeFirst, same, ih, keepsName]

private theorem find?_changeFirst (keepsName : ∀ child, (change child).name = child.name)
    (name sought : Text) (dirs : List Dir) :
    (changeFirst name change dirs).find? (fun child => child.name == sought) =
      (dirs.find? fun child => child.name == sought).map
        fun child => if sought = name then change child else child := by
  induction dirs with
  | nil => rfl
  | cons dir rest ih =>
    by_cases same : dir.name = name
    · subst same
      by_cases here : dir.name = sought
      · subst here
        simp [changeFirst, keepsName]
      · have other : sought ≠ dir.name := Ne.symm here
        simp [changeFirst, keepsName, here, other]
    · by_cases here : dir.name = sought
      · subst here
        simp [changeFirst, same]
      · simp [changeFirst, same, here, ih]

theorem findDir?_changeDir (keepsName : ∀ child, (change child).name = child.name)
    (dir : Dir) (name sought : Text) :
    (dir.changeDir name change).findDir? sought =
      (dir.findDir? sought).map fun child => if sought = name then change child else child :=
  find?_changeFirst keepsName name sought dir.dirs

theorem mem_changeFirst {name : Text} {child : Dir}
    (member : child ∈ changeFirst name change dirs) :
    child ∈ dirs ∨ ∃ before ∈ dirs, before.name = name ∧ change before = child := by
  induction dirs with
  | nil => cases member
  | cons dir rest ih =>
    rw [changeFirst] at member
    by_cases same : dir.name = name
    · rw [if_pos same] at member
      rcases List.mem_cons.mp member with rfl | later
      · exact Or.inr ⟨dir, List.mem_cons_self, same, rfl⟩
      · exact Or.inl (List.mem_cons_of_mem dir later)
    · rw [if_neg same] at member
      rcases List.mem_cons.mp member with rfl | later
      · exact Or.inl List.mem_cons_self
      · rcases ih later with kept | ⟨before, within, named, changed⟩
        · exact Or.inl (List.mem_cons_of_mem dir kept)
        · exact Or.inr ⟨before, List.mem_cons_of_mem dir within, named, changed⟩

theorem SiblingUnique.changeDir (unique : dir.SiblingUnique) (name : Text)
    (keepsName : ∀ child, (change child).name = child.name)
    (keepsUnique : ∀ child, child.SiblingUnique → (change child).SiblingUnique) :
    (dir.changeDir name change).SiblingUnique := by
  rw [siblingUnique_iff]
  refine ⟨⟨unique.files, ?_⟩, ?_⟩
  · rw [Dir.changeDir, map_name_changeFirst keepsName]
    exact unique.dirs
  · intro child member
    rcases mem_changeFirst member with kept | ⟨before, within, _, rfl⟩
    · exact unique.child kept
    · exact keepsUnique before (unique.child within)

end AddonExchange.Dir
