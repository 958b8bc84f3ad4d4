import AddonExchange.Name
import AddonExchange.Proofs.Text.Basic
import AddonExchange.Proofs.Text.Path

namespace AddonExchange.Name

variable {name : Text}

/-- A legal name stands for the form of characters, none of which is forbidden. -/
theorem exists_chars_of_isLegalFile (legal : isLegalFile name = true) :
    ∃ chars, name.rawBytes? = some (Text.utf8 chars) ∧ ∀ c ∈ chars, isForbidden c = false := by
  rw [isLegalFile] at legal
  split at legal
  · cases legal
  · rename_i raw stands
    rw [isLegalFileBytes, Bool.and_eq_true] at legal
    obtain ⟨_, readable⟩ := legal
    split at readable
    · cases readable
    · rename_i chars read
      refine ⟨chars, ?_, ?_⟩
      · rw [Utf8.utf8_of_decode? read, stands]
      · simpa using readable

theorem ne_nil_of_isLegalFile (legal : isLegalFile name = true) : name ≠ [] := by
  rintro rfl
  cases legal

theorem ne_here_of_isLegalFile (legal : isLegalFile name = true) : name ≠ Text.ofString "." := by
  rintro rfl
  exact absurd legal (by decide)

theorem ne_above_of_isLegalFile (legal : isLegalFile name = true) :
    name ≠ Text.ofString ".." := by
  rintro rfl
  exact absurd legal (by decide)

private theorem isForbidden_of_mem (legal : isLegalFile name = true) {char : Char}
    (member : CodePoint.ofChar char ∈ name) : isForbidden char = false := by
  obtain ⟨chars, stands, allowed⟩ := exists_chars_of_isLegalFile legal
  have found := Text.encode_infix_rawBytes? stands member (CodePoint.isSurrogate_ofChar char)
  obtain ⟨c, within, same⟩ := Utf8.mem_of_encode_infix (CodePoint.char_lt char) found
  rw [← CodePoint.ofChar_injective (Fin.ext same)]
  exact allowed c within

private theorem isControl_eq_false_of_mem (legal : isLegalFile name = true) {c : CodePoint}
    (member : c ∈ name) : c.isControl = false := by
  by_contra isControl
  simp only [CodePoint.isControl, Bool.not_eq_false, Bool.or_eq_true, Bool.and_eq_true,
    decide_eq_true_eq] at isControl
  have valid : c.val.isValidChar := Or.inl (by omega)
  have number : (Char.ofNat c.val).toNat = c.val := Utf8.toNat_ofNat valid
  have same : CodePoint.ofChar (Char.ofNat c.val) = c := Fin.ext number
  rw [← same] at member
  have allowed := isForbidden_of_mem legal member
  simp only [isForbidden, number, Bool.or_eq_false_iff, Bool.and_eq_false_iff,
    decide_eq_false_iff_not] at allowed
  have isDelete : c.val = 0x7F := by omega
  rw [isDelete] at allowed
  exact absurd allowed.1.1 (by decide)

theorem isComponent_of_isLegalFile (legal : isLegalFile name = true) : Text.IsComponent name where
  nonempty := ne_nil_of_isLegalFile legal
  notHere := ne_here_of_isLegalFile legal
  notAbove := ne_above_of_isLegalFile legal
  clean := by
    intro c member
    refine ⟨?_, ?_, ?_, isControl_eq_false_of_mem legal member⟩
    all_goals
      rintro rfl
      exact absurd (isForbidden_of_mem legal member) (by decide)

end AddonExchange.Name
