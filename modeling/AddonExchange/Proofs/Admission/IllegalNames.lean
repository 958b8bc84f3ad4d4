import AddonExchange.Admission.IllegalNames
import AddonExchange.Proofs.Tree.Entry

namespace AddonExchange.IllegalNames

open Findings (inside)

/-- Every entry of a directory has a legal name. -/
def Legal (dir : Dir) : Prop := ∀ entry ∈ dir.entries, Name.isLegalFile entry.name = true

instance : DecidablePred Legal := fun dir =>
  inferInstanceAs (Decidable (∀ entry ∈ dir.entries, Name.isLegalFile entry.name = true))

variable {tree : Dir} {path : List Text} {entry : Entry}

theorem legal_iff (dir : Dir) :
    Legal dir ↔
      (∀ file ∈ dir.files, Name.isLegalFile file.name = true) ∧
        ∀ child ∈ dir.dirs, Name.isLegalFile child.name = true := by
  simp only [Legal, Dir.entries, List.forall_mem_append, List.forall_mem_map, Entry.name]

theorem everywhere_legal_iff (tree : Dir) :
    tree.Everywhere Legal ↔
      (∀ file ∈ tree.files, Name.isLegalFile file.name = true) ∧
        ∀ child ∈ tree.dirs, Name.isLegalFile child.name = true ∧ child.Everywhere Legal := by
  rw [Dir.everywhere_iff, legal_iff, and_assoc, ← forall₂_and]

theorem noneAmong_iff (waiting : List (Text × Dir)) :
    noneAmong waiting = true ↔
      ∀ pair ∈ waiting, Name.isLegalFile pair.2.name = true ∧ pair.2.Everywhere Legal := by
  induction waiting using noneAmong.induct with
  | case1 => simp [noneAmong]
  | case2 path dir waiting legal ih =>
    rw [noneAmong, if_pos legal, ih, List.forall_mem_append, List.forall_mem_cons, held,
      List.forall_mem_map, everywhere_legal_iff]
    rw [Bool.and_eq_true, List.all_eq_true] at legal
    exact and_congr_left fun _ => ⟨fun below => ⟨legal.1, legal.2, below⟩, fun here => here.2.2⟩
  | case3 path dir waiting illegal =>
    rw [noneAmong, if_neg illegal, List.forall_mem_cons, everywhere_legal_iff]
    rw [Bool.and_eq_true, List.all_eq_true] at illegal
    constructor
    · intro impossible
      cases impossible
    · rintro ⟨⟨named, files, _⟩, _⟩
      exact absurd ⟨named, files⟩ illegal

theorem allLegal_iff (tree : Dir) : allLegal tree = true ↔ tree.Everywhere Legal := by
  rw [allLegal, Bool.and_eq_true, List.all_eq_true, noneAmong_iff, everywhere_legal_iff, held,
    List.forall_mem_map]

theorem allLegal_iff_hasEntry (tree : Dir) :
    allLegal tree = true ↔
      ∀ path entry, tree.HasEntry path entry → Name.isLegalFile entry.name = true := by
  rw [allLegal_iff]
  exact Dir.everywhere_entries_iff

end AddonExchange.IllegalNames
