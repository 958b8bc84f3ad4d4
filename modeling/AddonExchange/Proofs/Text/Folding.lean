import AddonExchange.Proofs.Text.Infix

/-! Text with its ASCII letters folded, and the bytes that it then stands for. In the wide form
different text has different bytes. In the raw form two spellings can have the same bytes, but
only where one of them carries a byte of a character that the other one has. -/

namespace AddonExchange

namespace CodePoint

/-- A code point that stands for a raw byte. -/
def CarriesByte (c : CodePoint) : Prop := 0xDC80 ≤ c.val ∧ c.val ≤ 0xDCFF

instance : DecidablePred CarriesByte := fun c =>
  inferInstanceAs (Decidable (0xDC80 ≤ c.val ∧ c.val ≤ 0xDCFF))

theorem val_foldAscii (c : CodePoint) :
    c.foldAscii.val = if 0x41 ≤ c.val ∧ c.val ≤ 0x5A then c.val + 0x20 else c.val := by
  unfold foldAscii
  split <;> rfl

private theorem foldAscii_of_carriesByte {c : CodePoint} (carries : c.CarriesByte) :
    c.foldAscii = c :=
  Utf8.foldAscii_of_le (Nat.le_trans (by decide) carries.1)

private theorem carriesByte_foldAscii_iff {c : CodePoint} :
    c.foldAscii.CarriesByte ↔ c.CarriesByte := by
  unfold foldAscii
  split
  · simp only [CarriesByte]
    omega
  · exact Iff.rfl

theorem isSurrogate_foldAscii (c : CodePoint) : c.foldAscii.isSurrogate = c.isSurrogate := by
  unfold foldAscii
  split
  · simp only [isSurrogate]
    grind
  · rfl

private theorem foldAscii_of_isSurrogate {c : CodePoint} (surrogate : c.isSurrogate = true) :
    c.foldAscii = c := by
  simp only [isSurrogate, Bool.and_eq_true, decide_eq_true_eq] at surrogate
  exact Utf8.foldAscii_of_le (by omega)

end CodePoint

namespace Text

variable {first second : Text}

/-- Text with `A` to `Z` as `a` to `z`. -/
def foldAscii (t : Text) : Text := t.map CodePoint.foldAscii

/-- Text is the same up to case if code point by code point the numbers are, those of `A` to `Z`
taken as those of `a` to `z`. -/
theorem foldAscii_eq_iff :
    first.foldAscii = second.foldAscii ↔
      first.map (fun c => if 0x41 ≤ c.val ∧ c.val ≤ 0x5A then c.val + 0x20 else c.val) =
        second.map fun c => if 0x41 ≤ c.val ∧ c.val ≤ 0x5A then c.val + 0x20 else c.val := by
  have numbers (t : Text) : t.foldAscii.map Fin.val =
      t.map fun c => if 0x41 ≤ c.val ∧ c.val ≤ 0x5A then c.val + 0x20 else c.val := by
    rw [foldAscii, List.map_map]
    exact List.map_congr_left fun c _ => c.val_foldAscii
  rw [← numbers, ← numbers]
  exact (List.map_inj_right fun _ _ => Fin.ext).symm

section Wide

theorem map_lowerByte_wideBytes (t : Text) :
    t.wideBytes.map Bytes.lowerByte = t.foldAscii.wideBytes := by
  simp only [wideBytes, foldAscii, List.map_flatMap, List.flatMap_map, Utf8.map_lowerByte_encode]

theorem wideBytes_injective (same : first.wideBytes = second.wideBytes) : first = second :=
  Utf8.coded_codePoint.encodeAll_injective same

end Wide

section Raw

variable {c : CodePoint} {t : Text} {unit raw : Bytes}

theorem rawUnit?_of_carriesByte (carries : c.CarriesByte) :
    rawUnit? c = some [(c.val - 0xDC00).toUInt8] :=
  if_pos carries

theorem rawUnit?_of_not_carriesByte (carriesNone : ¬ c.CarriesByte) :
    rawUnit? c = if c.isSurrogate then none else some (Utf8.encode c.val) :=
  if_neg carriesNone

theorem rawUnit?_of_not_isSurrogate (scalar : c.isSurrogate = false) :
    rawUnit? c = some (Utf8.encode c.val) := by
  have carriesNone : ¬ c.CarriesByte := by
    rintro ⟨low, high⟩
    simp only [CodePoint.isSurrogate, Bool.and_eq_false_iff, decide_eq_false_iff_not] at scalar
    omega
  rw [rawUnit?_of_not_carriesByte carriesNone, scalar]
  rfl

private theorem rawUnit?_eq_some (stands : rawUnit? c = some unit) :
    (c.CarriesByte ∧ unit = [(c.val - 0xDC00).toUInt8]) ∨
      (c.isSurrogate = false ∧ unit = Utf8.encode c.val) := by
  by_cases carries : c.CarriesByte
  · rw [rawUnit?_of_carriesByte carries, Option.some.injEq] at stands
    exact Or.inl ⟨carries, stands.symm⟩
  · rw [rawUnit?_of_not_carriesByte carries] at stands
    split at stands
    · cases stands
    · rename_i scalar
      rw [Option.some.injEq] at stands
      exact Or.inr ⟨eq_false_of_ne_true scalar, stands.symm⟩

theorem rawBytes?_cons (c : CodePoint) (t : Text) :
    rawBytes? (c :: t) = (rawUnit? c).bind fun unit => (rawBytes? t).map (unit ++ ·) := by
  rw [rawBytes?, rawBytes?, List.mapM_cons]
  cases rawUnit? c with
  | none => rfl
  | some unit => cases t.mapM rawUnit? <;> rfl

private theorem rawBytes?_cons_eq_some (stands : rawBytes? (c :: t) = some raw) :
    ∃ unit rest, rawUnit? c = some unit ∧ rawBytes? t = some rest ∧ raw = unit ++ rest := by
  rw [rawBytes?_cons] at stands
  obtain ⟨unit, unitStands, joined⟩ := Option.bind_eq_some_iff.mp stands
  obtain ⟨rest, restStands, whole⟩ := Option.map_eq_some_iff.mp joined
  exact ⟨unit, rest, unitStands, restStands, whole.symm⟩

theorem encode_infix_rawBytes? (stands : rawBytes? t = some raw) (member : c ∈ t)
    (scalar : c.isSurrogate = false) : Utf8.encode c.val <:+: raw := by
  induction t generalizing raw with
  | nil => cases member
  | cons d rest ih =>
    obtain ⟨unit, later, unitStands, laterStands, rfl⟩ := rawBytes?_cons_eq_some stands
    rcases List.mem_cons.mp member with rfl | laterMember
    · rw [rawUnit?_of_not_isSurrogate scalar, Option.some.injEq] at unitStands
      exact ⟨[], later, by rw [unitStands, List.nil_append]⟩
    · exact (ih laterStands laterMember).trans (List.suffix_append unit later).isInfix

/-- The bytes of a name with ASCII letters in lower case. -/
def foldedBytes? (t : Text) : Option Bytes := t.rawBytes?.map (List.map Bytes.lowerByte)

private theorem map_lowerByte_rawUnit? (c : CodePoint) :
    (rawUnit? c).map (List.map Bytes.lowerByte) = rawUnit? c.foldAscii := by
  by_cases carries : c.CarriesByte
  · have high : 0x80 ≤ (c.val - 0xDC00).toUInt8 := by
      obtain ⟨low, high⟩ := carries
      rw [UInt8.le_iff_toNat_le]
      simp
      omega
    rw [CodePoint.foldAscii_of_carriesByte carries, rawUnit?_of_carriesByte carries,
      Option.map_some, List.map_singleton, Utf8.lowerByte_of_le high]
  · cases surrogate : c.isSurrogate with
    | false =>
      rw [rawUnit?_of_not_isSurrogate surrogate, rawUnit?_of_not_isSurrogate, Option.map_some,
        Utf8.map_lowerByte_encode]
      rw [CodePoint.isSurrogate_foldAscii, surrogate]
    | true =>
      -- A surrogate that carries no byte has no bytes in either case.
      have none : rawUnit? c = none := by
        rw [rawUnit?_of_not_carriesByte carries, surrogate]
        rfl
      rw [CodePoint.foldAscii_of_isSurrogate surrogate, none, Option.map_none]

/-- The bytes of a name have its case. -/
theorem foldedBytes?_eq (t : Text) : t.foldedBytes? = t.foldAscii.rawBytes? := by
  induction t with
  | nil => rfl
  | cons c rest ih =>
    rw [foldAscii, List.map_cons, ← foldAscii, rawBytes?_cons, ← ih, ← map_lowerByte_rawUnit?,
      foldedBytes?, rawBytes?_cons, foldedBytes?]
    cases rawUnit? c with
    | none => rfl
    | some unit => cases rawBytes? rest <;> simp

/-- A code point carries a byte where the other is a character that has no byte of ASCII. -/
def CarriedFor (carried spelled : CodePoint) : Prop :=
  carried.CarriesByte ∧ spelled.isSurrogate = false ∧ 0x80 ≤ spelled.val

/-- At some place, up to which both are the same, the one text carries a byte where the other
has a character. -/
def SpelledApart (first second : Text) : Prop :=
  ∃ shared carried firstRest spelled secondRest,
    first = shared ++ carried :: firstRest ∧ second = shared ++ spelled :: secondRest ∧
      CarriedFor carried spelled

private theorem CarriedFor.spelledApart {carried spelled : CodePoint}
    (carriedFor : CarriedFor carried spelled) (firstRest secondRest : Text) :
    SpelledApart (carried :: firstRest) (spelled :: secondRest) :=
  ⟨[], carried, firstRest, spelled, secondRest, rfl, rfl, carriedFor⟩

theorem SpelledApart.cons (apart : SpelledApart first second) (c : CodePoint) :
    SpelledApart (c :: first) (c :: second) := by
  obtain ⟨shared, carried, firstRest, spelled, secondRest, rfl, rfl, carriedFor⟩ := apart
  exact ⟨c :: shared, carried, firstRest, spelled, secondRest, rfl, rfl, carriedFor⟩

/-- Text that is spelled apart from another one up to case carries a byte itself. -/
theorem SpelledApart.exists_carriesByte (apart : SpelledApart first.foldAscii second.foldAscii) :
    ∃ c ∈ first, c.CarriesByte := by
  obtain ⟨shared, carried, firstRest, _, _, whole, _, carriedFor⟩ := apart
  have member : carried ∈ first.foldAscii := by
    rw [whole]
    exact List.mem_append_right shared List.mem_cons_self
  obtain ⟨c, original, rfl⟩ := List.mem_map.mp member
  exact ⟨c, original, CodePoint.carriesByte_foldAscii_iff.mp carriedFor.1⟩

section Units

variable {d : CodePoint} {other unitRest otherRest : Bytes}

private theorem rawUnit?_ne_nil (stands : rawUnit? c = some unit) : unit ≠ [] := by
  rcases rawUnit?_eq_some stands with ⟨_, rfl⟩ | ⟨_, rfl⟩
  · exact List.cons_ne_nil _ _
  · exact Utf8.encode_ne_nil c.isLt

/-- A carried byte is none of ASCII, so no character of ASCII has a form that begins with it. -/
theorem carriedFor_of_append_eq (carries : c.CarriesByte) (scalar : d.isSurrogate = false)
    (same : [(c.val - 0xDC00).toUInt8] ++ unitRest = Utf8.encode d.val ++ otherRest) :
    CarriedFor c d := by
  refine ⟨carries, scalar, ?_⟩
  by_contra ascii
  obtain ⟨low, high⟩ := carries
  rw [Utf8.encode_of_ascii (Nat.lt_of_not_le ascii), List.singleton_append, List.singleton_append,
    List.cons.injEq] at same
  have sameNumber := congrArg UInt8.toNat same.1
  simp at sameNumber
  omega

/-- Where bytes of two code points begin the same string, the code points are the same or one
carries a byte of the other. -/
theorem eq_or_carriedFor (stands : rawUnit? c = some unit) (otherStands : rawUnit? d = some other)
    (same : unit ++ unitRest = other ++ otherRest) :
    (c = d ∧ unitRest = otherRest) ∨ CarriedFor c d ∨ CarriedFor d c := by
  rcases rawUnit?_eq_some stands with ⟨carries, rfl⟩ | ⟨scalar, rfl⟩ <;>
    rcases rawUnit?_eq_some otherStands with ⟨otherCarries, rfl⟩ | ⟨otherScalar, rfl⟩
  · rw [List.singleton_append, List.singleton_append, List.cons.injEq] at same
    have sameNumber := congrArg UInt8.toNat same.1
    obtain ⟨low, high⟩ := carries
    obtain ⟨otherLow, otherHigh⟩ := otherCarries
    simp at sameNumber
    exact Or.inl ⟨Fin.ext (by omega), same.2⟩
  · exact Or.inr (Or.inl (carriedFor_of_append_eq carries otherScalar same))
  · exact Or.inr (Or.inr (carriedFor_of_append_eq otherCarries scalar same.symm))
  · obtain ⟨sameCode, sameRest⟩ := Utf8.encode_append_inj c.isLt d.isLt same
    exact Or.inl ⟨Fin.ext sameCode, sameRest⟩

end Units

/-- Two names that stand for the same bytes are the same or spelled apart. -/
theorem eq_or_spelledApart (firstStands : first.rawBytes? = some raw)
    (secondStands : second.rawBytes? = some raw) :
    first = second ∨ SpelledApart first second ∨ SpelledApart second first := by
  induction first generalizing second raw with
  | nil =>
    cases firstStands
    cases second with
    | nil => exact Or.inl rfl
    | cons d others =>
      obtain ⟨unit, rest, unitStands, _, whole⟩ := rawBytes?_cons_eq_some secondStands
      exact absurd (List.append_eq_nil_iff.mp whole.symm).1 (rawUnit?_ne_nil unitStands)
  | cons c rest ih =>
    obtain ⟨unit, unitRest, unitStands, restStands, rfl⟩ := rawBytes?_cons_eq_some firstStands
    cases second with
    | nil =>
      have nothing : unit ++ unitRest = [] := (Option.some.inj secondStands).symm
      exact absurd (List.append_eq_nil_iff.mp nothing).1 (rawUnit?_ne_nil unitStands)
    | cons d others =>
      obtain ⟨other, otherRest, otherStands, othersStand, whole⟩ :=
        rawBytes?_cons_eq_some secondStands
      rcases eq_or_carriedFor unitStands otherStands whole with ⟨rfl, rfl⟩ | here | there
      · rcases ih restStands othersStand with rfl | apart | apart
        · exact Or.inl rfl
        · exact Or.inr (Or.inl (apart.cons c))
        · exact Or.inr (Or.inr (apart.cons c))
      · exact Or.inr (Or.inl (here.spelledApart rest others))
      · exact Or.inr (Or.inr (there.spelledApart others rest))

/-- Whether one of two names, up to case, carries a byte where the other has a character. -/
def SpelledDifferently (first second : Text) : Prop :=
  SpelledApart first.foldAscii second.foldAscii ∨ SpelledApart second.foldAscii first.foldAscii

theorem SpelledDifferently.exists_carriesByte (differently : SpelledDifferently first second) :
    (∃ c ∈ first, c.CarriesByte) ∨ ∃ c ∈ second, c.CarriesByte :=
  differently.imp SpelledApart.exists_carriesByte SpelledApart.exists_carriesByte

/-- Two names that stand for the same bytes up to case are the same up to case or differ in their
spelling. -/
theorem eq_or_spelledDifferently (firstStands : first.foldedBytes? = some raw)
    (secondStands : second.foldedBytes? = some raw) :
    first.foldAscii = second.foldAscii ∨ SpelledDifferently first second := by
  rw [foldedBytes?_eq] at firstStands secondStands
  exact eq_or_spelledApart firstStands secondStands

end Raw

end Text

end AddonExchange
