import AddonExchange.Value.Basic
import Mathlib.Data.List.Forall2

namespace AddonExchange.Value

/-- Sameness of values up to the order of the entries of mappings. -/
inductive Same : Value → Value → Prop where
  | refl (value : Value) : Same value value
  | list {first second : List Value} (items : List.Forall₂ Same first second) :
      Same (.list first) (.list second)
  | map {first second : List (Text × Value)}
      (held : ∀ key, Option.Rel Same (first.lookup key) (second.lookup key)) :
      Same (.map first) (.map second)

theorem Same.rel_refl (held : Option Value) : Option.Rel Same held held := by
  cases held with
  | none => exact .none
  | some value => exact .some (.refl value)

theorem Same.get? {first second : Value} (same : first.Same second) (key : Text) :
    Option.Rel Same (first.get? key) (second.get? key) := by
  cases same with
  | refl => exact rel_refl _
  | list _ => exact .none
  | map held => exact held key

theorem Same.exists_of_get? {first second value : Value} {key : Text} (same : first.Same second)
    (held : second.get? key = some value) :
    ∃ former, first.get? key = some former ∧ former.Same value := by
  have related := same.get? key
  rw [held] at related
  cases found : first.get? key with
  | none =>
    rw [found] at related
    cases related
  | some former =>
    rw [found] at related
    cases related with
    | some sameValue => exact ⟨former, rfl, sameValue⟩

theorem Same.of_get? {first second : Value} {key : Text} (isMap : (first.get? key).isSome)
    (areMaps : (second.get? key).isSome)
    (each : ∀ key, Option.Rel Same (first.get? key) (second.get? key)) : first.Same second := by
  cases first with
  | map entries =>
    cases second with
    | map others => exact .map each
    | _ => cases areMaps
  | _ => cases isMap

theorem Same.exists_list {second : Value} {items : List Value}
    (same : Same (.list items) second) :
    ∃ others, second = .list others ∧ List.Forall₂ Same items others := by
  cases same with
  | refl => exact ⟨items, rfl, List.forall₂_same.mpr fun item _ => .refl item⟩
  | list each => exact ⟨_, rfl, each⟩

theorem Same.eq_bytes {second : Value} {bytes : Bytes} (same : Same (.bytes bytes) second) :
    second = .bytes bytes := by
  cases same
  rfl

theorem Same.eq_text {second : Value} {text : Text} (same : Same (.text text) second) :
    second = .text text := by
  cases same
  rfl

end AddonExchange.Value
