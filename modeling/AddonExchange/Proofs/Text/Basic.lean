import AddonExchange.Text.Basic

namespace AddonExchange

theorem CodePoint.ofChar_injective {first second : Char}
    (same : CodePoint.ofChar first = CodePoint.ofChar second) : first = second := by
  have sameNumber : first.toNat = second.toNat := Fin.mk.inj same
  rw [← Char.ofNat_toNat first, sameNumber, Char.ofNat_toNat]

theorem CodePoint.isSurrogate_ofChar (c : Char) : (CodePoint.ofChar c).isSurrogate = false := by
  have valid := c.valid
  simp only [UInt32.isValidChar, Nat.isValidChar] at valid
  rw [isSurrogate, ofChar, Bool.and_eq_false_iff, decide_eq_false_iff_not,
    decide_eq_false_iff_not]
  show ¬ 0xD800 ≤ c.val.toNat ∨ ¬ c.val.toNat < 0xE000
  omega

theorem Text.ofString_injective {first second : String}
    (same : Text.ofString first = Text.ofString second) : first = second := by
  apply String.toList_injective
  exact (List.map_inj_right fun _ _ => CodePoint.ofChar_injective).mp same

theorem Text.ofString_eq_iff {first second : String} :
    Text.ofString first = Text.ofString second ↔ first = second := by
  constructor
  · exact Text.ofString_injective
  · exact congrArg Text.ofString

@[simp]
theorem Text.ofString_beq (first second : String) :
    (Text.ofString first == Text.ofString second) = (first == second) := by
  rw [Bool.eq_iff_iff, beq_iff_eq, beq_iff_eq, ofString_eq_iff]

end AddonExchange
