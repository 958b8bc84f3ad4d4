import AddonExchange.Proofs.Tree.Entry
import AddonExchange.Proofs.Tree.RoundTrip
import AddonExchange.Sync.UpdatePack
import Mathlib.Tactic.TFAE

namespace AddonExchange

namespace Value

/-- Whether a value has another one under a key, in one of its mappings at whatever depth. -/
inductive HoldsUnder (key : Text) : Value → Value → Prop where
  | here {entries : List (Text × Value)} {held : Value} (member : (key, held) ∈ entries) :
      HoldsUnder key (.map entries) held
  | entry {entries : List (Text × Value)} {entry : Text × Value} {held : Value}
      (member : entry ∈ entries) (deeper : HoldsUnder key entry.2 held) :
      HoldsUnder key (.map entries) held
  | item {items : List Value} {item held : Value} (member : item ∈ items)
      (deeper : HoldsUnder key item held) : HoldsUnder key (.list items) held

variable {key : Text} {held : Value}

private theorem holdsUnder_map_iff {entries : List (Text × Value)} :
    HoldsUnder key (.map entries) held ↔
      ∃ entry ∈ entries, entry.1 = key ∧ entry.2 = held ∨ HoldsUnder key entry.2 held := by
  constructor
  · intro holds
    cases holds with
    | here member => exact ⟨_, member, Or.inl ⟨rfl, rfl⟩⟩
    | entry member deeper => exact ⟨_, member, Or.inr deeper⟩
  · rintro ⟨entry, member, ⟨rfl, rfl⟩ | deeper⟩
    · exact .here member
    · exact .entry member deeper

private theorem holdsUnder_list_iff {items : List Value} :
    HoldsUnder key (.list items) held ↔ ∃ item ∈ items, HoldsUnder key item held := by
  constructor
  · intro holds
    cases holds with
    | item member deeper => exact ⟨_, member, deeper⟩
  · rintro ⟨item, member, deeper⟩
    exact .item member deeper

private theorem not_holdsUnder_text {text : Text} : ¬ HoldsUnder key (.text text) held := nofun

private theorem not_holdsUnder_bytes {bytes : Bytes} : ¬ HoldsUnder key (.bytes bytes) held := nofun

end Value

section Written

open Value

variable {escaped : Bool} {held : Value}

theorem File.holdsUnder_contents_toValue {file : File} :
    (file.toValue escaped).HoldsUnder "contents" held ↔
      ∃ bytes, file.contents = some bytes ∧
        .bytes (if escaped then Escape.encode bytes else bytes) = held := by
  obtain ⟨name, contents, hash⟩ := file
  rcases contents with _ | bytes <;> rcases hash with _ | _ | ⟨first, rest⟩ <;>
    simp [File.toValue, holdsUnder_map_iff, not_holdsUnder_text, not_holdsUnder_bytes,
      Text.ofString_eq_iff]

theorem Dir.holdsUnder_contents_toValue {dir : Dir} :
    (dir.toValue escaped).HoldsUnder "contents" held ↔
      (∃ file ∈ dir.files, (file.toValue escaped).HoldsUnder "contents" held) ∨
        ∃ child ∈ dir.dirs, (child.toValue escaped).HoldsUnder "contents" held := by
  rw [toValue_eq, valueWith]
  cases dir.files <;> cases dir.dirs <;>
    simp [childEntry, holdsUnder_map_iff, holdsUnder_list_iff, not_holdsUnder_text,
      Text.ofString_eq_iff]

/-- The contents in a written tree are those of its files, at every depth. -/
theorem Dir.holdsUnder_contents_toValue_iff_at {dir : Dir} :
    (dir.toValue escaped).HoldsUnder "contents" held ↔
      ∃ path holder file bytes, dir.At path holder ∧ file ∈ holder.files ∧
        file.contents = some bytes ∧
          .bytes (if escaped then Escape.encode bytes else bytes) = held := by
  induction dir with
  | node name files dirs ih =>
    rw [holdsUnder_contents_toValue]
    constructor
    · rintro (⟨file, member, holds⟩ | ⟨child, member, holds⟩)
      · obtain ⟨bytes, carried, same⟩ := File.holdsUnder_contents_toValue.mp holds
        exact ⟨[], _, file, bytes, .here, member, carried, same⟩
      · obtain ⟨path, holder, file, bytes, reached, further⟩ := (ih child member).mp holds
        exact ⟨_, holder, file, bytes, .through member reached, further⟩
    · rintro ⟨path, holder, file, bytes, reached, member, carried, same⟩
      cases reached with
      | here =>
        exact Or.inl ⟨file, member, File.holdsUnder_contents_toValue.mpr ⟨bytes, carried, same⟩⟩
      | @through _ child _ path childMember further =>
        exact Or.inr ⟨child, childMember, (ih child childMember).mpr
          ⟨path, holder, file, bytes, further, member, carried, same⟩⟩

theorem UpdatePack.holdsUnder_contents_toValue {pack : UpdatePack} :
    (pack.toValue escaped).HoldsUnder "contents" held ↔
      (pack.removals.toValue escaped).HoldsUnder "contents" held ∨
        (pack.additions.toValue escaped).HoldsUnder "contents" held := by
  simp [toValue, holdsUnder_map_iff, Text.ofString_eq_iff]

end Written

namespace Escape

/-- Whether the container can hold all bytes of a string. -/
def Storable (bytes : Bytes) : Prop := ∀ byte ∈ bytes, byte ∉ ([0x00, 0x0D, 0xFE] : List UInt8)

private theorem IsToken.storable {token : Bytes} (isToken : IsToken token) : Storable token := by
  cases isToken with
  | plain safe =>
    have among : ([0x00, 0x0D, 0xFE] : List UInt8) ⊆ [0x00, 0x01, 0x0D, 0xFE] := by decide
    exact List.forall_mem_singleton.mpr fun held => safe (among held)
  | marked known =>
    refine List.forall_mem_cons.mpr ⟨by decide, List.forall_mem_singleton.mpr ?_⟩
    simp only [List.mem_cons, List.not_mem_nil, or_false] at known
    rcases known with rfl | rfl | rfl | rfl <;> decide

private theorem storable_encode (bytes : Bytes) : Storable (encode bytes) := by
  rw [encode_eq_escape]
  intro byte member
  obtain ⟨plain, _, written⟩ := List.mem_flatMap.mp member
  exact (isToken_iff.mpr ⟨plain, rfl⟩).storable byte written

private theorem storable_of_holdsUnder_toValue {tree : Dir} {held : Value}
    (holds : (tree.toValue true).HoldsUnder "contents" held) :
    ∃ bytes, held = .bytes bytes ∧ Storable bytes := by
  obtain ⟨_, _, _, bytes, _, _, _, rfl⟩ := Dir.holdsUnder_contents_toValue_iff_at.mp holds
  exact ⟨encode bytes, rfl, storable_encode bytes⟩

/-- Byte strings in escaped form are those that are written again as they were when they are read,
and those made of tokens. The container can hold all of their bytes, and so all contents of
trees and packs that are written in this form. -/
theorem tfae_encoded_tokens :
    (∀ bytes : Bytes, List.TFAE [
        ∃ plain, bytes = encode plain,
        encode (decode bytes) = bytes,
        ∃ tokens : List Bytes, (∀ token ∈ tokens, IsToken token) ∧ bytes = tokens.flatten]) ∧
      (∀ plain, Storable (encode plain)) ∧
      (∀ (tree : Dir) (held : Value), (tree.toValue true).HoldsUnder "contents" held →
        ∃ bytes, held = .bytes bytes ∧ Storable bytes) ∧
      ∀ (pack : UpdatePack) (held : Value), (pack.toValue true).HoldsUnder "contents" held →
        ∃ bytes, held = .bytes bytes ∧ Storable bytes := by
  refine ⟨?_, storable_encode, fun _ _ => storable_of_holdsUnder_toValue, ?_⟩
  · intro bytes
    tfae_have 2 ↔ 1 := by
      rw [encode_decode_iff]
      exact exists_congr fun plain => eq_comm
    tfae_have 1 ↔ 3 := by
      simp only [eq_comm (a := bytes)]
      exact exists_encode_eq_iff
    tfae_finish
  · intro pack held holds
    rcases UpdatePack.holdsUnder_contents_toValue.mp holds with removed | added
    · exact storable_of_holdsUnder_toValue removed
    · exact storable_of_holdsUnder_toValue added

/-- A pack that adds a file with bytes that the container cannot hold. -/
def binaryPack : UpdatePack :=
  ⟨⟨"addon", [], []⟩,
    ⟨"addon", [], [⟨"maps", [⟨"first.map", some [0x00, 0x61, 0xFE], none⟩], []⟩]⟩⟩

theorem tfae_encoded_tokens_binaryPack :
    let tree := binaryPack.additions
    let held := Value.bytes [0x01, 0x01, 0x61, 0x01, 0xFF]
    ((tree.toValue true).HoldsUnder "contents" held ∧
        ∃ bytes, held = .bytes bytes ∧ Storable bytes) ∧
      (binaryPack.toValue true).HoldsUnder "contents" held ∧
        ∃ bytes, held = .bytes bytes ∧ Storable bytes := by
  intro tree held
  have inTree : (tree.toValue true).HoldsUnder "contents" held :=
    Dir.holdsUnder_contents_toValue_iff_at.mpr
      ⟨_, _, _, _, .through List.mem_cons_self .here, List.mem_cons_self, rfl, rfl⟩
  have inPack : (binaryPack.toValue true).HoldsUnder "contents" held :=
    UpdatePack.holdsUnder_contents_toValue.mpr (Or.inr inTree)
  obtain ⟨_, _, ofTree, ofPack⟩ := tfae_encoded_tokens
  exact ⟨⟨inTree, ofTree tree held inTree⟩, inPack, ofPack binaryPack held inPack⟩

end Escape

end AddonExchange
