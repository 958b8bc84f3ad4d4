import AddonExchange.Proofs.Admission.Name
import Mathlib.Data.List.Basic

/-! The language of file names. Some rules are checked on the bytes of a name before it is known
whether these are text at all; here all of them are stated of the characters of the name. -/

namespace AddonExchange

namespace Name

variable {chars : List Char} {raw : Bytes} {name : Text}

/-- What the characters of a file name keep to. -/
structure IsFileName (chars : List Char) : Prop where
  nonempty : chars ≠ []
  noFinalDot : chars.getLast? ≠ some '.'
  noDoubledDot : ¬ ['.', '.'] <:+: chars
  short : (chars.flatMap String.utf8EncodeChar).length ≤ 255
  noDevice : String.ofList ((chars.takeWhile (· ≠ '.')).map Char.toUpper) ∉ deviceNames
  clean : ∀ c ∈ chars, c ∉ " \"*/:<>?\\|~".toList ∧ c.toNat ≠ 0x7F ∧ 0x20 ≤ c.toNat ∧
    ¬ (0x80 ≤ c.toNat ∧ c.toNat ≤ 0x9F)

section Dots

/-- The byte of the dot occurs in the form of no other character. -/
theorem dot_mem_encode_iff {c : Char} : dot ∈ Utf8.encode c.toNat ↔ c = '.' := by
  have within : Utf8.encodeAll Char.toNat ['.'] <:+: Utf8.encodeAll Char.toNat [c] ↔
      ['.'] <:+: [c] := Utf8.coded_char.infix_iff
  rw [Utf8.encodeAll_singleton, Utf8.encodeAll_singleton, List.singleton_infix_iff,
    List.mem_singleton] at within
  rw [eq_comm, ← within, ← List.singleton_infix_iff]
  rfl

private theorem takeWhile_utf8 (chars : List Char) :
    (Text.utf8 chars).takeWhile (· != dot) = Text.utf8 (chars.takeWhile (· ≠ '.')) := by
  induction chars with
  | nil => rfl
  | cons c chars ih =>
    rw [Text.utf8, List.flatMap_cons, ← Text.utf8]
    by_cases isDot : c = '.'
    · subst isDot
      rfl
    · have passed : ∀ b ∈ Utf8.encode c.toNat, (b != dot) = true := by
        intro b member
        rw [bne_iff_ne]
        intro same
        exact isDot (dot_mem_encode_iff.mp (same ▸ member))
      rw [List.takeWhile_append_of_pos passed, ih,
        List.takeWhile_cons_of_pos (by simpa using isDot)]
      rfl

private theorem getLast?_utf8_iff :
    (Text.utf8 chars).getLast? = some dot ↔ chars.getLast? = some '.' := by
  have ends : Utf8.encodeAll Char.toNat ['.'] <:+ Text.utf8 chars ↔ ['.'] <:+ chars :=
    Utf8.coded_char.suffix_iff
  rw [← List.singleton_suffix_iff_getLast?_eq_some, ← List.singleton_suffix_iff_getLast?_eq_some]
  exact ends

private theorem hasDoubledDot_iff : hasDoubledDot raw = true ↔ [dot, dot] <:+: raw := by
  fun_induction hasDoubledDot raw with
  | case1 first second rest ih =>
    have starts : [dot, dot] <+: first :: second :: rest ↔ first = dot ∧ second = dot := by
      simp [eq_comm]
    rw [List.infix_cons_iff, starts, ← ih]
    simp
  | case2 raw short =>
    simp only [Bool.false_eq_true, false_iff]
    intro within
    obtain ⟨before, after, rfl⟩ := within
    cases before with
    | nil => exact short dot dot after rfl
    | cons first before =>
      cases before with
      | nil => exact short first dot (dot :: after) rfl
      | cons second before => exact short first second _ rfl

private theorem hasDoubledDot_utf8_iff :
    hasDoubledDot (Text.utf8 chars) = true ↔ ['.', '.'] <:+: chars := by
  have within : Utf8.encodeAll Char.toNat ['.', '.'] <:+: Text.utf8 chars ↔
      ['.', '.'] <:+: chars := Utf8.coded_char.infix_iff
  rw [hasDoubledDot_iff]
  exact within

end Dots

section Devices

theorem toNat_toUpper (c : Char) :
    c.toUpper.toNat = if 0x61 ≤ c.toNat ∧ c.toNat ≤ 0x7A then c.toNat - 0x20 else c.toNat := by
  have isLower : c.val ≥ 'a'.val ∧ c.val ≤ 'z'.val ↔ 0x61 ≤ c.toNat ∧ c.toNat ≤ 0x7A := by
    rw [ge_iff_le, UInt32.le_iff_toNat_le, UInt32.le_iff_toNat_le]
    rfl
  delta Char.toUpper
  split
  · rename_i lower
    have bounds := isLower.mp lower
    rw [if_pos bounds]
    -- The distance to the upper case is added modulo the size of a word.
    change (c.val + ('A'.val - 'a'.val)).toNat = _
    rw [UInt32.toNat_add]
    change (c.toNat + 0xFFFFFFE0) % 0x100000000 = _
    omega
  · rename_i other
    rw [if_neg (isLower.not.mp other)]

private theorem upperByte_of_le {b : UInt8} (high : 0x80 ≤ b) : Bytes.upperByte b = b := by
  rw [Bytes.upperByte, if_neg]
  intro bounds
  have contradictory : (0x80 : UInt8) ≤ 0x7A := UInt8.le_trans high bounds.2
  exact absurd contradictory (by decide)

private theorem upperByte_toUInt8 {n : Nat} (ascii : n < 0x80) :
    Bytes.upperByte n.toUInt8 = (if 0x61 ≤ n ∧ n ≤ 0x7A then n - 0x20 else n).toUInt8 := by
  have sameByte : n.toUInt8.toNat = n := by
    simp
    omega
  unfold Bytes.upperByte
  simp only [UInt8.le_iff_toNat_le, sameByte, UInt8.reduceToNat]
  split
  · rename_i letter
    apply UInt8.toNat_inj.mp
    rw [UInt8.toNat_sub_of_le, sameByte]
    · simp
      omega
    · rw [UInt8.le_iff_toNat_le, sameByte]
      simp
      omega
  · rfl

private theorem map_upperByte_encode (c : Char) :
    (Utf8.encode c.toNat).map Bytes.upperByte = Utf8.encode c.toUpper.toNat := by
  rw [toNat_toUpper]
  by_cases ascii : c.toNat < 0x80
  · rw [Utf8.encode_of_ascii ascii, Utf8.encode_of_ascii (by split <;> omega),
      List.map_singleton, upperByte_toUInt8 ascii]
  · have wide : 0x80 ≤ c.toNat := Nat.le_of_not_lt ascii
    have unchanged : ∀ b ∈ Utf8.encode c.toNat, Bytes.upperByte b = b := fun b member =>
      upperByte_of_le (Utf8.le_of_mem_encode wide (CodePoint.char_lt c) b member)
    rw [if_neg (by omega), List.map_congr_left unchanged, List.map_id']

private theorem stem_utf8 (chars : List Char) :
    stem (Text.utf8 chars) = Text.utf8 ((chars.takeWhile (· ≠ '.')).map Char.toUpper) := by
  rw [stem, takeWhile_utf8]
  simp only [Text.utf8, List.map_flatMap, List.flatMap_map, map_upperByte_encode]

private theorem isDevice_utf8_iff :
    isDevice (Text.utf8 chars) = true ↔
      String.ofList ((chars.takeWhile (· ≠ '.')).map Char.toUpper) ∈ deviceNames := by
  have sameText (name : String) (upper : List Char) :
      Text.utf8 name.toList = Text.utf8 upper ↔ name = String.ofList upper := by
    have same : Text.utf8 name.toList = Text.utf8 upper ↔ name.toList = upper :=
      Utf8.coded_char.encodeAll_injective.eq_iff
    rw [same, ← String.toList_inj, String.toList_ofList]
  rw [isDevice, stem_utf8, List.any_eq_true]
  simp only [beq_iff_eq, sameText, exists_eq_right]

end Devices

section Characters

private theorem isForbidden_eq_false_iff {c : Char} :
    isForbidden c = false ↔ c ∉ " \"*/:<>?\\|~".toList ∧ c.toNat ≠ 0x7F ∧ 0x20 ≤ c.toNat ∧
      ¬ (0x80 ≤ c.toNat ∧ c.toNat ≤ 0x9F) := by
  have listed : forbidden = " \"*/:<>?\\|~".toList ++ ['\x7F'] := rfl
  have isDelete : c = '\x7F' ↔ c.toNat = 0x7F := Utf8.coded_char.injective.eq_iff.symm
  rw [isForbidden, listed, Bool.or_eq_false_iff, Bool.or_eq_false_iff, ← Bool.not_eq_true,
    List.contains_iff_mem, List.mem_append, List.mem_singleton, isDelete, not_or, and_assoc,
    and_assoc]
  simp only [Bool.and_eq_false_iff, decide_eq_false_iff_not, Nat.not_lt, not_and_or]
  grind

end Characters

private theorem utf8_isEmpty_iff : (Text.utf8 chars).isEmpty = true ↔ chars = [] := by
  rw [List.isEmpty_iff]
  exact Utf8.coded_char.encodeAll_eq_nil_iff

theorem isLegalFileBytes_utf8_iff :
    isLegalFileBytes (Text.utf8 chars) = true ↔ IsFileName chars := by
  rw [isLegalFileBytes, Utf8.decode?_utf8]
  simp only [Bool.and_eq_true, Bool.not_eq_true', bne_iff_ne, decide_eq_true_eq,
    List.all_eq_true]
  constructor
  · intro legal
    obtain ⟨⟨⟨⟨⟨nonempty, noFinalDot⟩, noDoubledDot⟩, short⟩, noDevice⟩, clean⟩ := legal
    rw [Utf8.utf8_eq_flatMap] at short
    exact {
      nonempty := utf8_isEmpty_iff.not.mp (Bool.eq_false_iff.mp nonempty)
      noFinalDot := getLast?_utf8_iff.not.mp noFinalDot
      noDoubledDot := hasDoubledDot_utf8_iff.not.mp (Bool.eq_false_iff.mp noDoubledDot)
      short := short
      noDevice := isDevice_utf8_iff.not.mp (Bool.eq_false_iff.mp noDevice)
      clean := fun c member => isForbidden_eq_false_iff.mp (clean c member) }
  · intro fileName
    have short := fileName.short
    rw [← Utf8.utf8_eq_flatMap] at short
    exact ⟨⟨⟨⟨⟨Bool.eq_false_iff.mpr (utf8_isEmpty_iff.not.mpr fileName.nonempty),
      getLast?_utf8_iff.not.mpr fileName.noFinalDot⟩,
      Bool.eq_false_iff.mpr (hasDoubledDot_utf8_iff.not.mpr fileName.noDoubledDot)⟩, short⟩,
      Bool.eq_false_iff.mpr (isDevice_utf8_iff.not.mpr fileName.noDevice)⟩,
      fun c member => isForbidden_eq_false_iff.mpr (fileName.clean c member)⟩

theorem isLegalFileBytes_iff :
    isLegalFileBytes raw = true ↔ ∃ chars, raw = Text.utf8 chars ∧ IsFileName chars := by
  constructor
  · intro legal
    have stands := legal
    rw [isLegalFileBytes, Bool.and_eq_true] at stands
    obtain ⟨_, readable⟩ := stands
    split at readable
    · cases readable
    · rename_i chars read
      obtain rfl := Utf8.utf8_of_decode? read
      exact ⟨chars, rfl, isLegalFileBytes_utf8_iff.mp legal⟩
  · intro spelled
    obtain ⟨chars, rfl, fileName⟩ := spelled
    exact isLegalFileBytes_utf8_iff.mpr fileName

end Name

section Stored

variable {c : CodePoint} {name : Text}

/-- The bytes that a code point of a name stands for: the one that it carries, or else those in
which its character is stored. -/
def CodePoint.storedBytes (c : CodePoint) : Bytes :=
  if c.CarriesByte then [(0x80 + (c.val - 0xDC80)).toUInt8]
  else String.utf8EncodeChar (Char.ofNat c.val)

private theorem CodePoint.isValidChar_of_not_isSurrogate (scalar : c.isSurrogate = false) :
    c.val.isValidChar := by
  have bound := c.isLt
  simp only [isSurrogate, Bool.and_eq_false_iff, decide_eq_false_iff_not] at scalar
  rw [Nat.isValidChar]
  omega

private theorem CodePoint.ofChar_ofNat (scalar : c.isSurrogate = false) :
    CodePoint.ofChar (Char.ofNat c.val) = c :=
  Fin.ext (Utf8.toNat_ofNat (isValidChar_of_not_isSurrogate scalar))

private theorem Text.exists_ofChars (scalars : ∀ c ∈ name, c.isSurrogate = false) :
    ∃ chars, name = Text.ofChars chars := by
  refine ⟨name.map fun c => Char.ofNat c.val, ?_⟩
  rw [ofChars, List.map_map]
  exact ((List.map_congr_left fun c member => CodePoint.ofChar_ofNat (scalars c member)).trans
    (List.map_id' name)).symm

private theorem Text.rawUnit?_eq_storedBytes (readable : c.isSurrogate = true → c.CarriesByte) :
    rawUnit? c = some c.storedBytes := by
  by_cases carries : c.CarriesByte
  · have ⟨low, high⟩ := carries
    have sameByte : c.val - 0xDC00 = 0x80 + (c.val - 0xDC80) := by omega
    rw [rawUnit?_of_carriesByte carries, CodePoint.storedBytes, if_pos carries, sameByte]
  · have scalar : c.isSurrogate = false := Bool.eq_false_iff.mpr (mt readable carries)
    have number := Utf8.toNat_ofNat (CodePoint.isValidChar_of_not_isSurrogate scalar)
    rw [rawUnit?_of_not_isSurrogate scalar, CodePoint.storedBytes, if_neg carries,
      ← Utf8.encode_eq_utf8EncodeChar, number]

private theorem Text.rawBytes?_eq_storedBytes
    (readable : ∀ c ∈ name, c.isSurrogate = true → c.CarriesByte) :
    name.rawBytes? = some (name.flatMap CodePoint.storedBytes) := by
  induction name with
  | nil => rfl
  | cons c rest ih =>
    obtain ⟨here, later⟩ := List.forall_mem_cons.mp readable
    rw [rawBytes?_cons, rawUnit?_eq_storedBytes here, ih later, List.flatMap_cons]
    rfl

/-- A surrogate that carries no byte has none, and neither has a name that holds one. -/
theorem Text.rawBytes?_eq_none (lone : ∃ c ∈ name, c.isSurrogate = true ∧ ¬ c.CarriesByte) :
    name.rawBytes? = none := by
  induction name with
  | nil =>
    obtain ⟨c, member, _⟩ := lone
    cases member
  | cons c rest ih =>
    rw [rawBytes?_cons]
    rcases (List.exists_mem_cons_iff _ _ _).mp lone with ⟨surrogate, carriesNone⟩ | later
    · rw [rawUnit?_of_not_carriesByte carriesNone, if_pos surrogate, Option.bind_none]
    · rw [ih later]
      cases rawUnit? c <;> rfl

theorem CodePoint.storedBytes_ofChar (char : Char) :
    (CodePoint.ofChar char).storedBytes = String.utf8EncodeChar char := by
  have scalar := isSurrogate_ofChar char
  have stands := Text.rawUnit?_eq_storedBytes (c := ofChar char) (by simp [scalar])
  rw [Text.rawUnit?_of_not_isSurrogate scalar, Option.some.injEq] at stands
  rw [← stands, ← Utf8.encode_eq_utf8EncodeChar]
  rfl

end Stored

namespace Name

/-- Bytes are a legal name of a file exactly if they are the UTF-8 form of characters that keep to
the rules. Text is judged by the bytes that it stands for: those in which it is stored, where
surrogates that carry bytes stand for these; with any other surrogate it is not legal. -/
theorem legal_file_names_exactly :
    (∀ raw : Bytes, isLegalFileBytes raw = true ↔
        ∃ chars, raw = chars.flatMap String.utf8EncodeChar ∧ IsFileName chars) ∧
      (∀ name : Text, (∀ c ∈ name, c.isSurrogate = false) →
        ∃ chars, name = Text.ofChars chars ∧
          isLegalFile name = isLegalFileBytes (chars.flatMap String.utf8EncodeChar)) ∧
      (∀ name : Text, (∀ c ∈ name, c.isSurrogate = true → c.CarriesByte) →
        isLegalFile name = isLegalFileBytes (name.flatMap CodePoint.storedBytes)) ∧
      ∀ name : Text, (∃ c ∈ name, c.isSurrogate = true ∧ ¬ c.CarriesByte) →
        isLegalFile name = false := by
  have judged (name : Text) (readable : ∀ c ∈ name, c.isSurrogate = true → c.CarriesByte) :
      isLegalFile name = isLegalFileBytes (name.flatMap CodePoint.storedBytes) := by
    rw [isLegalFile, Text.rawBytes?_eq_storedBytes readable]
  refine ⟨fun raw => ?_, fun name scalars => ?_, judged, fun name lone => ?_⟩
  · simp only [isLegalFileBytes_iff, Utf8.utf8_eq_flatMap]
  · obtain ⟨chars, rfl⟩ := Text.exists_ofChars scalars
    refine ⟨chars, rfl, ?_⟩
    rw [judged _ fun c member surrogate => ?_]
    · rw [Text.ofChars, List.flatMap_map]
      simp only [CodePoint.storedBytes_ofChar]
    · rw [scalars c member] at surrogate
      cases surrogate
  · rw [isLegalFile, Text.rawBytes?_eq_none lone]

/-- A name that carries the bytes of an accented letter, as a host keeps it. -/
def carriedName : Text :=
  [⟨0xDCC3, by decide⟩, ⟨0xDCA9, by decide⟩] ++ Text.ofString ".cfg"

/-- The same name after it was cut within the letter, with half of a surrogate pair. -/
def brokenName : Text := [⟨0xDCC3, by decide⟩, ⟨0xD83D, by decide⟩]

theorem legal_file_names_exactly_carriedName :
    (∀ c ∈ carriedName, c.isSurrogate = true → c.CarriesByte) ∧
      isLegalFile carriedName = isLegalFileBytes [0xC3, 0xA9, 0x2E, 0x63, 0x66, 0x67] ∧
      (∃ c ∈ brokenName, c.isSurrogate = true ∧ ¬ c.CarriesByte) ∧
      isLegalFile brokenName = false := by
  obtain ⟨_, _, carried, broken⟩ := legal_file_names_exactly
  have readable : ∀ c ∈ carriedName, c.isSurrogate = true → c.CarriesByte :=
    List.forall_iff_forall_mem.mp (by decide +kernel)
  have lone : ∃ c ∈ brokenName, c.isSurrogate = true ∧ ¬ c.CarriesByte :=
    ⟨⟨0xD83D, by decide⟩, by simp [brokenName], by decide, by decide⟩
  exact ⟨readable, carried carriedName readable, lone, broken brokenName lone⟩

end Name

end AddonExchange
