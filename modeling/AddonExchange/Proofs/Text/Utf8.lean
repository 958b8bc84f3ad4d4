import AddonExchange.Text.Utf8
import Mathlib.Data.List.Infix

/-! The forms of code points in a byte string. A form starts with a byte that tells its length
and goes on with bytes that start none, so where one form ends the next begins. -/

namespace AddonExchange.Utf8

variable {code first second : Nat}

/-- A byte that stands within a form but never at its start. -/
def IsContinuation (b : UInt8) : Prop := 0x80 ≤ b ∧ b < 0xC0

private theorem isContinuation_toUInt8_iff {n : Nat} (small : n < 256) :
    IsContinuation n.toUInt8 ↔ 0x80 ≤ n ∧ n < 0xC0 := by
  rw [IsContinuation, UInt8.le_iff_toNat_le, UInt8.lt_iff_toNat_lt]
  simp [Nat.mod_eq_of_lt small]

private theorem isContinuation_sixBits (n : Nat) : IsContinuation (0x80 + n % 64).toUInt8 := by
  rw [isContinuation_toUInt8_iff (by omega)]
  omega

private theorem width_toUInt8 {n : Nat} (small : n < 256) :
    width n.toUInt8 =
      if n < 0x80 then 1 else if n < 0xE0 then 2 else if n < 0xF0 then 3 else 4 := by
  simp [width, UInt8.lt_iff_toNat_lt, Nat.mod_eq_of_lt small]

theorem width_pos (lead : UInt8) : 0 < width lead := by
  unfold width
  repeat' split
  all_goals omega

/-- A form is a lead byte, which announces how long it is, and continuation bytes. -/
theorem encode_eq_cons (valid : code < 0x110000) :
    ∃ lead tail, encode code = lead :: tail ∧ width lead = tail.length + 1 ∧
      ¬ IsContinuation lead ∧ ∀ b ∈ tail, IsContinuation b := by
  have payloads : ∀ b ∈ [(0x80 + code / 4096 % 64).toUInt8, (0x80 + code / 64 % 64).toUInt8,
      (0x80 + code % 64).toUInt8], IsContinuation b := by
    simp only [List.forall_mem_cons, isContinuation_sixBits, List.not_mem_nil, false_implies,
      implies_true, and_self]
  unfold encode
  split
  · refine ⟨_, [], rfl, ?_, ?_, by simp⟩
    · rw [width_toUInt8 (by omega), if_pos (by omega)]
      rfl
    · rw [isContinuation_toUInt8_iff (by omega)]
      omega
  split
  · refine ⟨_, _, rfl, ?_, ?_, fun b member => payloads b (by grind)⟩
    · rw [width_toUInt8 (by omega), if_neg (by omega), if_pos (by omega)]
      rfl
    · rw [isContinuation_toUInt8_iff (by omega)]
      omega
  split
  · refine ⟨_, _, rfl, ?_, ?_, fun b member => payloads b (by grind)⟩
    · rw [width_toUInt8 (by omega), if_neg (by omega), if_neg (by omega), if_pos (by omega)]
      rfl
    · rw [isContinuation_toUInt8_iff (by omega)]
      omega
  · refine ⟨_, _, rfl, ?_, ?_, payloads⟩
    · rw [width_toUInt8 (by omega), if_neg (by omega), if_neg (by omega), if_neg (by omega)]
      rfl
    · rw [isContinuation_toUInt8_iff (by omega)]
      omega

theorem encode_ne_nil (valid : code < 0x110000) : encode code ≠ [] := by
  obtain ⟨lead, tail, form, _⟩ := encode_eq_cons valid
  rw [form]
  exact List.cons_ne_nil lead tail

theorem payload_encode (valid : code < 0x110000) : payload (encode code) = code := by
  unfold encode
  repeat' split
  all_goals
    simp [payload]
    omega

/-- Where two byte strings begin with forms and are the same, the forms are those of the same
code point. -/
theorem encode_append_inj (firstValid : first < 0x110000) (secondValid : second < 0x110000)
    {firstRest secondRest : Bytes}
    (same : encode first ++ firstRest = encode second ++ secondRest) :
    first = second ∧ firstRest = secondRest := by
  have sameLength : (encode first).length = (encode second).length := by
    obtain ⟨lead, tail, form, announced, _⟩ := encode_eq_cons firstValid
    obtain ⟨otherLead, otherTail, otherForm, otherAnnounced, _⟩ := encode_eq_cons secondValid
    rw [form, otherForm, List.cons_append, List.cons_append, List.cons.injEq] at same
    rw [form, otherForm, List.length_cons, List.length_cons, ← announced, ← otherAnnounced,
      same.1]
  obtain ⟨sameForm, sameRest⟩ := List.append_inj same sameLength
  refine ⟨?_, sameRest⟩
  rw [← payload_encode firstValid, sameForm, payload_encode secondValid]

section Ascii

theorem encode_of_ascii (ascii : code < 0x80) : encode code = [code.toUInt8] := by
  rw [encode, if_pos ascii]

/-- No byte of a longer form is in the range of ASCII. -/
theorem le_of_mem_encode (wide : 0x80 ≤ code) (valid : code < 0x110000) :
    ∀ b ∈ encode code, 0x80 ≤ b := by
  have lead_le {n : Nat} (low : 0x80 ≤ n) (small : n < 256) : 0x80 ≤ n.toUInt8 := by
    rw [UInt8.le_iff_toNat_le]
    simpa [Nat.mod_eq_of_lt small] using low
  unfold encode
  rw [if_neg (by omega)]
  repeat' split
  all_goals
    simp only [List.forall_mem_cons, List.not_mem_nil, false_implies, implies_true, and_true]
    repeat' constructor
    all_goals exact lead_le (by omega) (by omega)

theorem lowerByte_of_le {b : UInt8} (high : 0x80 ≤ b) : Bytes.lowerByte b = b := by
  rw [Bytes.lowerByte, if_neg]
  rintro ⟨_, letter⟩
  have contradictory : (0x80 : UInt8) ≤ 0x5A := UInt8.le_trans high letter
  exact absurd contradictory (by decide)

private theorem lowerByte_toUInt8 (c : CodePoint) (ascii : c.val < 0x80) :
    Bytes.lowerByte c.val.toUInt8 = c.foldAscii.val.toUInt8 := by
  have sameByte : c.val.toUInt8.toNat = c.val := by
    simp
    omega
  unfold Bytes.lowerByte CodePoint.foldAscii
  simp only [UInt8.le_iff_toNat_le, sameByte, UInt8.reduceToNat]
  split
  · simp
  · rfl

theorem foldAscii_lt_iff (c : CodePoint) : c.foldAscii.val < 0x80 ↔ c.val < 0x80 := by
  unfold CodePoint.foldAscii
  split
  · show c.val + 0x20 < 0x80 ↔ c.val < 0x80
    omega
  · rfl

theorem foldAscii_of_le {c : CodePoint} (wide : 0x80 ≤ c.val) : c.foldAscii = c := by
  rw [CodePoint.foldAscii, dif_neg (by omega)]

theorem map_lowerByte_encode (c : CodePoint) :
    (encode c.val).map Bytes.lowerByte = encode c.foldAscii.val := by
  by_cases ascii : c.val < 0x80
  · rw [encode_of_ascii ascii, encode_of_ascii ((foldAscii_lt_iff c).mpr ascii),
      List.map_singleton, lowerByte_toUInt8 c ascii]
  · have wide : 0x80 ≤ c.val := Nat.le_of_not_lt ascii
    have unchanged : ∀ b ∈ encode c.val, Bytes.lowerByte b = b := fun b member =>
      lowerByte_of_le (le_of_mem_encode wide c.isLt b member)
    rw [foldAscii_of_le wide, List.map_congr_left unchanged, List.map_id']

end Ascii

section Decode

variable {bytes : Bytes} {chars : List Char}

theorem toNat_ofNat {n : Nat} (valid : n.isValidChar) : (Char.ofNat n).toNat = n := by
  rw [Char.ofNat, dif_pos valid]
  rfl

theorem utf8_of_decode? (read : decode? bytes = some chars) : Text.utf8 chars = bytes := by
  fun_induction decode? bytes generalizing chars with
  | case1 =>
    cases read
    rfl
  | case2 lead rest unit code accepted =>
    rename_i ih
    obtain ⟨later, readLater, rfl⟩ := Option.map_eq_some_iff.mp read
    have consumed : (lead :: rest).drop (width lead) = rest.drop (width lead - 1) := by
      cases announced : width lead with
      | zero => exact absurd announced (Nat.ne_of_gt (width_pos lead))
      | succ n => rfl
    rw [Text.utf8, List.flatMap_cons, toNat_ofNat accepted.1, accepted.2, ← Text.utf8,
      ih readLater, ← consumed, List.take_append_drop]
  | case3 => cases read

theorem decode?_utf8 (chars : List Char) : decode? (Text.utf8 chars) = some chars := by
  induction chars with
  | nil => rw [Text.utf8, List.flatMap_nil, decode?]
  | cons c chars ih =>
    have valid := CodePoint.char_lt c
    obtain ⟨lead, tail, form, announced, _⟩ := encode_eq_cons valid
    have unit : (lead :: (tail ++ Text.utf8 chars)).take (width lead) = encode c.toNat := by
      rw [announced, List.take_succ_cons, List.take_left, form]
    have rest : (tail ++ Text.utf8 chars).drop (width lead - 1) = Text.utf8 chars := by
      rw [announced, Nat.add_sub_cancel, List.drop_left]
    rw [Text.utf8, List.flatMap_cons, ← Text.utf8, form, List.cons_append, decode?]
    simp only [unit, rest, payload_encode valid]
    rw [ih, if_pos ⟨c.valid, trivial⟩, Option.map_some, Char.ofNat_toNat]

end Decode

section Stored

theorem encode_eq_utf8EncodeChar (c : Char) : encode c.toNat = String.utf8EncodeChar c := by
  have bound : c.toNat < 0x110000 := CodePoint.char_lt c
  have number : c.val.toNat = c.toNat := rfl
  simp only [encode, String.utf8EncodeChar, Nat.lt_succ_iff, number]
  generalize c.toNat = n at bound
  split
  · rfl
  split
  · rw [Nat.add_comm 0xC0, Nat.add_comm 0x80, Nat.mod_eq_of_lt (show n / 64 < 32 by omega)]
  split
  · rw [Nat.add_comm 0xE0, Nat.add_comm 0x80, Nat.add_comm 0x80,
      Nat.mod_eq_of_lt (show n / 4096 < 16 by omega)]
  · rw [Nat.add_comm 0xF0, Nat.add_comm 0x80, Nat.add_comm 0x80, Nat.add_comm 0x80,
      Nat.mod_eq_of_lt (show n / 262144 < 8 by omega)]

theorem utf8_eq_flatMap (chars : List Char) :
    Text.utf8 chars = chars.flatMap String.utf8EncodeChar := by
  simp only [Text.utf8, encode_eq_utf8EncodeChar]

end Stored

end AddonExchange.Utf8
