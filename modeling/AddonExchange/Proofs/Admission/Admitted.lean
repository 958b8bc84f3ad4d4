import AddonExchange.Proofs.Admission.CaseClash
import AddonExchange.Proofs.Admission.IllegalNames
import AddonExchange.Proofs.Admission.Name

/-! Trees that pass both checks of their names. Legal names are those of the bytes that a name
stands for, and keys are made of its code points; so siblings can stand for the same bytes, but
only if one carries a byte of a character that the other has. -/

namespace AddonExchange.Dir

/-- Every name in the tree is legal and no two names of a directory clash. -/
structure Admitted (tree : Dir) : Prop where
  namesLegal : IllegalNames.allLegal tree = true
  clashFree : CaseClash.isFree tree = true

instance (tree : Dir) : Decidable tree.Admitted :=
  decidable_of_iff (IllegalNames.allLegal tree = true ∧ CaseClash.isFree tree = true)
    ⟨fun passes => ⟨passes.1, passes.2⟩, fun admitted => ⟨admitted.namesLegal, admitted.clashFree⟩⟩

/-- Entries of a directory that stand for the same bytes up to case differ in their spelling.
There are none if no name carries a byte. -/
structure BytesApart (dir : Dir) : Prop where
  spelled : dir.entries.Pairwise fun first second =>
    first.name.foldedBytes? = second.name.foldedBytes? →
      Text.SpelledDifferently first.name second.name
  distinct : (∀ entry ∈ dir.entries, ∀ c ∈ entry.name, ¬ c.CarriesByte) →
    (dir.entries.map fun entry => entry.name.foldedBytes?).Nodup

private theorem spelledDifferently_of_foldedBytes?_eq {first second : Text}
    (legal : Name.isLegalFile first = true)
    (keysDiffer : CaseClash.key first ≠ CaseClash.key second)
    (same : first.foldedBytes? = second.foldedBytes?) : Text.SpelledDifferently first second := by
  obtain ⟨chars, stands, _⟩ := Name.exists_chars_of_isLegalFile legal
  have firstStands : first.foldedBytes? = some ((Text.utf8 chars).map Bytes.lowerByte) := by
    rw [Text.foldedBytes?, stands, Option.map_some]
  have secondStands := same.symm.trans firstStands
  rcases Text.eq_or_spelledDifferently firstStands secondStands with sameFolded | differently
  · exact absurd (CaseClash.key_eq_iff.mpr sameFolded) keysDiffer
  · exact differently

/-- In an admitted tree only names that carry bytes can stand for the bytes of a sibling. -/
theorem Admitted.bytesApart {tree : Dir} (admitted : tree.Admitted) :
    tree.Everywhere BytesApart := by
  have legal := (IllegalNames.allLegal_iff tree).mp admitted.namesLegal
  have keysDistinct := (CaseClash.isFree_iff tree).mp admitted.clashFree
  rw [everywhere_iff_at]
  intro path dir reached
  have spelled : dir.entries.Pairwise fun first second =>
      first.name.foldedBytes? = second.name.foldedBytes? →
        Text.SpelledDifferently first.name second.name := by
    refine (List.pairwise_map.mp (keysDistinct.at reached)).imp_of_mem ?_
    intro first second member _ keysDiffer
    exact spelledDifferently_of_foldedBytes?_eq (legal.at reached first member) keysDiffer
  refine ⟨spelled, fun carryNone => List.pairwise_map.mpr (spelled.imp_of_mem ?_)⟩
  intro first second member otherMember differently same
  rcases (differently same).exists_carriesByte with ⟨c, within, carries⟩ | ⟨c, within, carries⟩
  · exact carryNone first member c within carries
  · exact carryNone second otherMember c within carries

/-- A directory with a file of an accented name and one whose name carries the bytes of it. -/
def twoSpellings : Dir :=
  ⟨"addon", [⟨[0xE9], some [0x61], none⟩, ⟨[0xDCC3, 0xDCA9], some [0x62], none⟩], []⟩

theorem Admitted.bytesApart_twoSpellings :
    twoSpellings.Admitted ∧ twoSpellings.Everywhere BytesApart := by
  have admitted : twoSpellings.Admitted := by decide +kernel
  exact ⟨admitted, admitted.bytesApart⟩

/-- Both files are admitted into one directory although they stand for one name on disk. -/
theorem twoSpellings_collide :
    twoSpellings.Admitted ∧
      ¬ (twoSpellings.entries.map fun entry => entry.name.foldedBytes?).Nodup := by
  decide +kernel

end AddonExchange.Dir
