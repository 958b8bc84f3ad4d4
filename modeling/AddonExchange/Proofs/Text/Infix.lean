import AddonExchange.Proofs.Text.Basic
import AddonExchange.Proofs.Text.Utf8

/-! Where encoded text stands within encoded text. No form begins inside another one, so what is
encoded stands somewhere in the bytes of a text exactly if it stands there in the text itself. -/

namespace AddonExchange.Utf8

variable {α : Type} {code : α → Nat} {part whole : List α} {before after : Bytes}

/-- The forms of items, each of which has a code point. -/
def encodeAll (code : α → Nat) (items : List α) : Bytes :=
  items.flatMap fun item => encode (code item)

theorem encodeAll_nil (code : α → Nat) : encodeAll code [] = [] := List.flatMap_nil

theorem encodeAll_cons (code : α → Nat) (item : α) (items : List α) :
    encodeAll code (item :: items) = encode (code item) ++ encodeAll code items :=
  List.flatMap_cons

theorem encodeAll_singleton (code : α → Nat) (item : α) :
    encodeAll code [item] = encode (code item) :=
  List.flatMap_singleton _ item

theorem encodeAll_append (code : α → Nat) (first second : List α) :
    encodeAll code (first ++ second) = encodeAll code first ++ encodeAll code second :=
  List.flatMap_append

/-- Different items have different code points. -/
structure Coded (code : α → Nat) : Prop where
  valid (item : α) : code item < 0x110000
  injective : Function.Injective code

theorem coded_char : Coded Char.toNat where
  valid := CodePoint.char_lt
  injective first second same := by rw [← Char.ofNat_toNat first, same, Char.ofNat_toNat]

theorem coded_codePoint : Coded fun c : CodePoint => c.val where
  valid c := c.isLt
  injective _ _ same := Fin.ext same

namespace Coded

variable (coded : Coded code)

include coded

theorem encodeAll_eq_nil_iff {items : List α} : encodeAll code items = [] ↔ items = [] := by
  cases items with
  | nil => simp [encodeAll_nil]
  | cons item items =>
    rw [encodeAll_cons, List.append_eq_nil_iff]
    simp [encode_ne_nil (coded.valid item)]

/-- Encoded text begins with the forms of another text exactly if the texts begin alike. -/
theorem exists_rest_of_append_eq (cut : encodeAll code part ++ after = encodeAll code whole) :
    ∃ last, whole = part ++ last ∧ after = encodeAll code last := by
  induction part generalizing whole with
  | nil => exact ⟨whole, rfl, cut⟩
  | cons item part ih =>
    cases whole with
    | nil =>
      rw [encodeAll_cons, encodeAll_nil, List.append_assoc, List.append_eq_nil_iff] at cut
      exact absurd cut.1 (encode_ne_nil (coded.valid item))
    | cons other whole =>
      rw [encodeAll_cons, encodeAll_cons, List.append_assoc] at cut
      obtain ⟨sameCode, cutRest⟩ :=
        encode_append_inj (coded.valid item) (coded.valid other) cut
      obtain ⟨last, rfl, rfl⟩ := ih cutRest
      exact ⟨last, by rw [coded.injective sameCode, List.cons_append], rfl⟩

theorem encodeAll_injective : Function.Injective (encodeAll code) := by
  intro first second same
  rw [← List.append_nil (encodeAll code first)] at same
  obtain ⟨last, rfl, nothing⟩ := coded.exists_rest_of_append_eq same
  rw [coded.encodeAll_eq_nil_iff.mp nothing.symm, List.append_nil]

/-- A form begins only where another one ends. -/
theorem eq_nil_of_cut_form {item other : α} {inner rest : Bytes}
    (cut : encode (code item) = before ++ inner) (inside : before ≠ [])
    (begins : inner ++ rest = encode (code other) ++ after) : inner = [] := by
  cases before with
  | nil => exact absurd rfl inside
  | cons lead before =>
    cases inner with
    | nil => rfl
    | cons first inner =>
      obtain ⟨_, tail, form, _, _, continues⟩ := encode_eq_cons (coded.valid item)
      obtain ⟨_, _, otherForm, _, leads, _⟩ := encode_eq_cons (coded.valid other)
      rw [form, List.cons_append, List.cons.injEq] at cut
      rw [otherForm, List.cons_append, List.cons_append, List.cons.injEq] at begins
      have within : first ∈ tail := by
        rw [cut.2]
        exact List.mem_append_right before List.mem_cons_self
      rw [begins.1] at within
      exact absurd (continues _ within) leads

/-- Where the forms of a text stand within encoded text, that text is cut before and after them
between its characters. -/
theorem exists_parts_of_append_eq (nonempty : part ≠ [])
    (cut : before ++ (encodeAll code part ++ after) = encodeAll code whole) :
    ∃ first last, whole = first ++ (part ++ last) ∧ before = encodeAll code first ∧
      after = encodeAll code last := by
  induction whole generalizing before with
  | nil =>
    rw [encodeAll_nil, List.append_eq_nil_iff, List.append_eq_nil_iff] at cut
    exact absurd (coded.encodeAll_eq_nil_iff.mp cut.2.1) nonempty
  | cons item whole ih =>
    have later {others : Bytes} (whence : before = encode (code item) ++ others)
        (cutLater : others ++ (encodeAll code part ++ after) = encodeAll code whole) :
        ∃ first last, item :: whole = first ++ (part ++ last) ∧ before = encodeAll code first ∧
          after = encodeAll code last := by
      obtain ⟨first, last, rfl, rfl, rfl⟩ := ih cutLater
      exact ⟨item :: first, last, rfl, by rw [whence, encodeAll_cons], rfl⟩
    by_cases start : before = []
    · rw [start, List.nil_append] at cut
      obtain ⟨last, split, rest⟩ := coded.exists_rest_of_append_eq cut
      exact ⟨[], last, by rw [split, List.nil_append], start, rest⟩
    · rw [encodeAll_cons] at cut
      rcases List.append_eq_append_iff.mp cut with ⟨inner, form, begins⟩ | ⟨others, whence, rest⟩
      · obtain ⟨other, part, rfl⟩ := List.exists_cons_of_ne_nil nonempty
        rw [encodeAll_cons, List.append_assoc] at begins
        obtain rfl := coded.eq_nil_of_cut_form form start begins.symm
        rw [List.append_nil] at form
        have whence : before = encode (code item) ++ [] := by rw [form, List.append_nil]
        refine later whence ?_
        rw [List.nil_append, encodeAll_cons, List.append_assoc, begins, List.nil_append]
      · exact later whence rest.symm

/-- Text stands in another one exactly if it does so in encoded form. -/
theorem infix_iff : encodeAll code part <:+: encodeAll code whole ↔ part <:+: whole := by
  constructor
  · rintro ⟨before, after, cut⟩
    rw [List.append_assoc] at cut
    by_cases empty : part = []
    · exact empty ▸ List.nil_infix
    · obtain ⟨first, last, rfl, _⟩ := coded.exists_parts_of_append_eq empty cut
      exact ⟨first, last, by rw [List.append_assoc]⟩
  · rintro ⟨first, last, rfl⟩
    exact ⟨encodeAll code first, encodeAll code last, by rw [encodeAll_append, encodeAll_append]⟩

theorem suffix_iff : encodeAll code part <:+ encodeAll code whole ↔ part <:+ whole := by
  constructor
  · rintro ⟨before, cut⟩
    by_cases empty : part = []
    · exact empty ▸ List.nil_suffix
    · rw [← List.append_nil (encodeAll code part)] at cut
      obtain ⟨first, last, rfl, _, ends⟩ := coded.exists_parts_of_append_eq empty cut
      rw [coded.encodeAll_eq_nil_iff.mp ends.symm, List.append_nil]
      exact List.suffix_append first part
  · rintro ⟨first, rfl⟩
    rw [encodeAll_append]
    exact List.suffix_append _ _

end Coded

theorem mem_of_encode_infix {n : Nat} {chars : List Char} (valid : n < 0x110000)
    (found : encode n <:+: Text.utf8 chars) : ∃ c ∈ chars, c.toNat = n := by
  have ofText : Text.utf8 chars = encodeAll (fun c : CodePoint => c.val) (Text.ofChars chars) := by
    rw [encodeAll, Text.ofChars, List.flatMap_map]
    rfl
  have alone : encode n = encodeAll (fun c : CodePoint => c.val) [⟨n, valid⟩] :=
    (encodeAll_singleton (fun c : CodePoint => c.val) ⟨n, valid⟩).symm
  rw [ofText, alone, coded_codePoint.infix_iff] at found
  obtain ⟨c, member, same⟩ := List.mem_map.mp (found.subset List.mem_cons_self)
  exact ⟨c, member, congrArg Fin.val same⟩

end AddonExchange.Utf8
