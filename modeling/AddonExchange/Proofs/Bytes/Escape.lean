import AddonExchange.Bytes.Escape
import Mathlib.Data.Set.List

/-! Escaping and reading. Every byte is written as a token of its own that is read as a whole, so
reading undoes escaping, also in front of further bytes. The byte strings that are written are
those made of tokens; reading also accepts others, which are not written again as they were. -/

namespace AddonExchange.Escape

section Whole

variable {bytes : Bytes}

theorem length_le_length_escape (bytes : Bytes) : bytes.length ≤ (escape bytes).length := by
  induction bytes with
  | nil => exact Nat.le_refl 0
  | cons byte bytes ih =>
    have unitNonempty : 1 ≤ (encodeByte byte).length := by
      rw [encodeByte]
      split <;> simp
    rw [escape, List.flatMap_cons, ← escape, List.length_append, List.length_cons]
    omega

theorem escape_eq_self_iff :
    escape bytes = bytes ↔ ∀ byte ∈ bytes, ¬ needsEscaping byte := by
  induction bytes with
  | nil => simp [escape]
  | cons byte bytes ih =>
    rw [escape, List.flatMap_cons, ← escape, encodeByte, List.forall_mem_cons, ← ih]
    by_cases special : needsEscaping byte
    · have longer := length_le_length_escape bytes
      rw [if_pos special]
      constructor
      · intro same
        have sameLength := congrArg List.length same
        simp only [List.length_append, List.length_cons, List.length_nil] at sameLength
        omega
      · rintro ⟨plain, _⟩
        exact absurd special plain
    · simp [special]

theorem encode_eq_escape (bytes : Bytes) : encode bytes = escape bytes := by
  rw [encode]
  split
  · rfl
  · rename_i plain
    rw [Bool.not_eq_true, List.any_eq_false] at plain
    exact (escape_eq_self_iff.mpr plain).symm

theorem length_unescape_le (bytes : Bytes) : (unescape bytes).length ≤ bytes.length := by
  induction bytes using unescape.induct with
  | case1 => exact Nat.le_refl 0
  | case2 byte => exact Nat.le_refl 1
  | case3 next rest ih =>
    rw [unescape, if_pos rfl, List.length_cons, List.length_cons, List.length_cons]
    omega
  | case4 byte next rest plain ih =>
    rw [unescape, if_neg plain, List.length_cons, List.length_cons]
    omega

/-- Reading from left to right leaves a byte string as it is exactly if there is no marker in it
but at the end. -/
theorem unescape_eq_self_iff : unescape bytes = bytes ↔ marker ∉ bytes.dropLast := by
  induction bytes using unescape.induct with
  | case1 => simp [unescape]
  | case2 byte => simp [unescape]
  | case3 next rest ih =>
    have shorter := length_unescape_le rest
    rw [unescape, if_pos rfl, List.dropLast_cons_cons]
    constructor
    · intro same
      have sameLength := congrArg List.length same
      simp only [List.length_cons] at sameLength
      omega
    · intro absent
      exact absurd List.mem_cons_self absent
  | case4 byte next rest plain ih =>
    rw [unescape, if_neg plain, List.dropLast_cons_cons, List.cons_inj_right, ih, List.mem_cons,
      not_or]
    exact (and_iff_right (Ne.symm plain)).symm

theorem decode_eq_unescape (bytes : Bytes) : decode bytes = unescape bytes := by
  rw [decode]
  split
  · rfl
  · rename_i absent
    rw [List.contains_iff_mem] at absent
    refine (unescape_eq_self_iff.mpr ?_).symm
    intro found
    exact absent (List.dropLast_subset bytes found)

end Whole

section Reading

theorem encode_append (first second : Bytes) :
    encode (first ++ second) = encode first ++ encode second := by
  simp only [encode_eq_escape, escape, List.flatMap_append]

private theorem unescape_cons_of_ne {byte : UInt8} (plain : byte ≠ marker) (rest : Bytes) :
    unescape (byte :: rest) = byte :: unescape rest := by
  cases rest with
  | nil => rfl
  | cons next rest => rw [unescape, if_neg plain]

private theorem unescape_encodeByte_append (byte : UInt8) (rest : Bytes) :
    unescape (encodeByte byte ++ rest) = byte :: unescape rest := by
  rw [encodeByte]
  split
  · rw [List.cons_append, List.singleton_append, unescape, if_pos rfl, UInt8.add_sub_cancel]
  · rename_i plain
    apply unescape_cons_of_ne
    intro same
    apply plain
    rw [same]
    rfl

private theorem unescape_escape_append (bytes rest : Bytes) :
    unescape (escape bytes ++ rest) = bytes ++ unescape rest := by
  induction bytes with
  | nil => rfl
  | cons byte bytes ih =>
    rw [escape, List.flatMap_cons, List.append_assoc, unescape_encodeByte_append, List.cons_append]
    exact congrArg (byte :: ·) ih

private theorem decode_encode_append (bytes rest : Bytes) :
    decode (encode bytes ++ rest) = bytes ++ decode rest := by
  simp only [encode_eq_escape, decode_eq_unescape, unescape_escape_append]

theorem decode_encode (bytes : Bytes) : decode (encode bytes) = bytes := by
  have alone := decode_encode_append bytes []
  rwa [List.append_nil, show decode [] = [] from rfl, List.append_nil] at alone

/-- Byte strings are written one after the other, and one that is written is read as it was,
whatever follows it. -/
theorem prefix_decodable (first second : Bytes) :
    encode (first ++ second) = encode first ++ encode second ∧
      decode (encode first ++ second) = first ++ decode second ∧
      decode (encode first) = first :=
  ⟨encode_append first second, decode_encode_append first second, decode_encode first⟩

end Reading

section Tokens

/-- What a byte may be written as: itself, unless it has to be escaped, or a marker followed by
one of the bytes that come after those that have to be. -/
inductive IsToken : Bytes → Prop where
  | plain {byte : UInt8} (safe : byte ∉ ([0x00, 0x01, 0x0D, 0xFE] : List UInt8)) : IsToken [byte]
  | marked {byte : UInt8} (known : byte ∈ ([0x01, 0x02, 0x0E, 0xFF] : List UInt8)) :
      IsToken [0x01, byte]

theorem needsEscaping_iff {byte : UInt8} :
    needsEscaping byte = true ↔ byte ∈ ([0x00, 0x01, 0x0D, 0xFE] : List UInt8) := by
  rw [needsEscaping, List.contains_iff_mem]
  rfl

theorem isToken_iff {token : Bytes} : IsToken token ↔ ∃ byte, encodeByte byte = token := by
  constructor
  · intro isToken
    cases isToken with
    | @plain byte safe => exact ⟨byte, if_neg (mt needsEscaping_iff.mp safe)⟩
    | marked known =>
      simp only [List.mem_cons, List.not_mem_nil, or_false] at known
      rcases known with rfl | rfl | rfl | rfl
      · exact ⟨0x00, rfl⟩
      · exact ⟨0x01, rfl⟩
      · exact ⟨0x0D, rfl⟩
      · exact ⟨0xFE, rfl⟩
  · rintro ⟨byte, rfl⟩
    by_cases special : needsEscaping byte
    · have listed := needsEscaping_iff.mp special
      rw [encodeByte, if_pos special]
      apply IsToken.marked
      simp only [List.mem_cons, List.not_mem_nil, or_false] at listed
      rcases listed with rfl | rfl | rfl | rfl <;> decide
    · rw [encodeByte, if_neg special]
      exact .plain (mt needsEscaping_iff.mpr special)

/-- What is written are the tokens one after the other. -/
theorem exists_encode_eq_iff {bytes : Bytes} :
    (∃ plain, encode plain = bytes) ↔
      ∃ tokens : List Bytes, (∀ token ∈ tokens, IsToken token) ∧ tokens.flatten = bytes := by
  simp only [encode_eq_escape]
  constructor
  · rintro ⟨plain, rfl⟩
    refine ⟨plain.map encodeByte, ?_, rfl⟩
    rw [List.forall_mem_map]
    exact fun byte _ => isToken_iff.mpr ⟨byte, rfl⟩
  · rintro ⟨tokens, each, rfl⟩
    simp only [isToken_iff] at each
    obtain ⟨plain, rfl⟩ : tokens ∈ Set.range (List.map encodeByte) := by
      rw [Set.range_list_map]
      exact each
    exact ⟨plain, rfl⟩

theorem encode_decode_iff {bytes : Bytes} :
    encode (decode bytes) = bytes ↔ ∃ plain, encode plain = bytes := by
  constructor
  · intro same
    exact ⟨decode bytes, same⟩
  · rintro ⟨plain, rfl⟩
    rw [decode_encode]

/-- A marker may stand in front of any byte when it is read. -/
example : encode (decode [0x01, 0x61]) = [0x60] := by decide

end Tokens

end AddonExchange.Escape
