import AddonExchange.Proofs.Text.Folding
import AddonExchange.Tree.Walk

namespace AddonExchange

def CodePoint.slash : CodePoint := CodePoint.ofChar '/'

/-- Control characters below the space, those after ASCII, and the delete character. -/
def CodePoint.isControl (c : CodePoint) : Bool :=
  c.val < 0x20 || (0x7F ≤ c.val && c.val < 0xA0)

private theorem CodePoint.foldAscii_eq_slash_iff {c : CodePoint} :
    c.foldAscii = slash ↔ c = slash := by
  have code : slash.val = 0x2F := rfl
  rw [Fin.ext_iff, Fin.ext_iff, code]
  unfold foldAscii
  split
  · dsimp only
    omega
  · exact Iff.rfl

namespace Text

open CodePoint (slash)

section Joining

variable {name : Text} {names others : List Text}

/-- The path text of names, one below the other. -/
def joinNames (names : List Text) : Text := names.foldl joinPath []

private theorem joinPath_of_ne_nil {path : Text} (nonempty : path ≠ []) (name : Text) :
    path.joinPath name = path ++ slash :: name := by
  have single : ofString "/" = [slash] := rfl
  rw [joinPath, if_neg (by simpa using nonempty), single, List.append_assoc, List.singleton_append]

private theorem foldl_joinPath {path : Text} (nonempty : path ≠ []) (names : List Text) :
    names.foldl joinPath path = path ++ names.flatMap (slash :: ·) := by
  induction names generalizing path with
  | nil => simp
  | cons name rest ih =>
    have longer : path.joinPath name ≠ [] := by
      rw [joinPath_of_ne_nil nonempty]
      simp
    rw [List.foldl_cons, ih longer, joinPath_of_ne_nil nonempty, List.flatMap_cons,
      List.append_assoc]

private theorem intercalate_slash_cons (name : Text) (rest : List Text) :
    [slash].intercalate (name :: rest) = name ++ rest.flatMap (slash :: ·) := by
  induction rest generalizing name with
  | nil => simp
  | cons second rest ih =>
    rw [List.intercalate_cons_cons, ih, List.flatMap_cons]
    simp

theorem joinNames_cons (nonempty : name ≠ []) (rest : List Text) :
    joinNames (name :: rest) = [slash].intercalate (name :: rest) := by
  rw [intercalate_slash_cons, ← foldl_joinPath nonempty]
  rfl

theorem joinNames_concat_of_head? (named : names.head? ≠ some []) (name : Text) :
    joinNames (names ++ [name]) = [slash].intercalate (names ++ [name]) := by
  cases names with
  | nil =>
    rw [List.nil_append, List.intercalate_singleton]
    rfl
  | cons first rest =>
    have nonempty : first ≠ [] := by
      intro empty
      exact named (congrArg some empty)
    exact joinNames_cons nonempty (rest ++ [name])

/-- Names that a path can be taken apart into. -/
structure Separable (names : List Text) : Prop where
  someName : names ≠ []
  nonempty : ∀ name ∈ names, name ≠ []
  slashFree : ∀ name ∈ names, slash ∉ name

/-- Joining drops none of the names that a path can be taken apart into. -/
theorem joinNames_eq_intercalate (separable : Separable names) :
    joinNames names = [slash].intercalate names := by
  cases names with
  | nil => exact absurd rfl separable.someName
  | cons first rest => exact joinNames_cons (separable.nonempty first List.mem_cons_self) rest

theorem splitOn_joinNames (separable : Separable names) :
    (joinNames names).splitOn slash = names := by
  rw [joinNames_eq_intercalate separable]
  exact List.splitOn_intercalate slash separable.slashFree separable.someName

/-- A path does not start at the root of anything larger. -/
theorem head?_joinNames (separable : Separable names) : (joinNames names).head? ≠ some slash := by
  cases names with
  | nil => exact absurd rfl separable.someName
  | cons first rest =>
    have nonempty := separable.nonempty first List.mem_cons_self
    have slashFree := separable.slashFree first List.mem_cons_self
    rw [joinNames_cons nonempty, intercalate_slash_cons, List.head?_append_of_ne_nil first nonempty]
    intro leading
    exact slashFree (List.mem_of_mem_head? leading)

theorem joinNames_inj (separable : Separable names) (otherSeparable : Separable others)
    (same : joinNames names = joinNames others) : names = others := by
  rw [← splitOn_joinNames separable, same, splitOn_joinNames otherSeparable]

end Joining

section Folding

variable {names : List Text}

theorem foldAscii_joinPath (path name : Text) :
    (path.joinPath name).foldAscii = path.foldAscii.joinPath name.foldAscii := by
  have slashKept : (ofString "/").foldAscii = ofString "/" := by decide
  rw [joinPath, joinPath]
  have sameEmpty : path.foldAscii.isEmpty = path.isEmpty := List.isEmpty_map
  rw [sameEmpty]
  split
  · rfl
  · rw [foldAscii, List.map_append, List.map_append, ← foldAscii, ← foldAscii, ← foldAscii,
      slashKept]

theorem foldAscii_joinNames (names : List Text) :
    (joinNames names).foldAscii = joinNames (names.map foldAscii) := by
  rw [joinNames, joinNames, List.foldl_map]
  exact (List.foldl_hom foldAscii fun path name => (foldAscii_joinPath path name).symm).symm

theorem Separable.foldAscii (separable : Separable names) : Separable (names.map foldAscii) where
  someName := by simpa using separable.someName
  nonempty := by
    intro folded member
    obtain ⟨name, original, rfl⟩ := List.mem_map.mp member
    simpa [Text.foldAscii] using separable.nonempty name original
  slashFree := by
    intro folded member hasSlash
    obtain ⟨name, original, rfl⟩ := List.mem_map.mp member
    obtain ⟨c, within, isSlash⟩ := List.mem_map.mp hasSlash
    rw [CodePoint.foldAscii_eq_slash_iff] at isSlash
    exact separable.slashFree name original (isSlash ▸ within)

end Folding

section Resolving

variable {components : List Text}

/-- A name that as a component of a path leads one level down and nowhere else. -/
structure IsComponent (name : Text) : Prop where
  nonempty : name ≠ []
  notHere : name ≠ ofString "."
  notAbove : name ≠ ofString ".."
  clean : ∀ c ∈ name, c ≠ slash ∧ c ≠ CodePoint.ofChar '\\' ∧ c ≠ CodePoint.ofChar ':' ∧
    c.isControl = false

theorem separable_of_isComponent (someName : components ≠ [])
    (proper : ∀ component ∈ components, IsComponent component) : Separable components where
  someName := someName
  nonempty := fun component member => (proper component member).nonempty
  slashFree := fun component member isThere =>
    ((proper component member).clean slash isThere).1 rfl

/-- Goes on from a place, given by the names that lead to it, to what a component of a path names
there; there is nothing above the root. -/
def resolveStep? (place : List Text) (component : Text) : Option (List Text) :=
  if component = [] ∨ component = ofString "." then some place
  else if component = ofString ".." then
    if place = [] then none else some place.dropLast
  else some (place ++ [component])

/-- The place that the components of a path name, seen from the root, if the way there does not
leave the root. -/
def resolve? (components : List Text) : Option (List Text) := components.foldlM resolveStep? []

private theorem resolveStep?_of_isComponent {component : Text} (proper : IsComponent component)
    (place : List Text) : resolveStep? place component = some (place ++ [component]) := by
  rw [resolveStep?, if_neg (not_or.mpr ⟨proper.nonempty, proper.notHere⟩), if_neg proper.notAbove]

private theorem foldlM_resolveStep? (proper : ∀ component ∈ components, IsComponent component)
    (place : List Text) : components.foldlM resolveStep? place = some (place ++ components) := by
  induction components generalizing place with
  | nil => simp
  | cons first rest ih =>
    obtain ⟨firstProper, restProper⟩ := List.forall_mem_cons.mp proper
    rw [List.foldlM_cons, resolveStep?_of_isComponent firstProper, Option.bind_eq_bind,
      Option.bind_some, ih restProper, List.append_assoc, List.singleton_append]

theorem resolve?_of_isComponent (proper : ∀ component ∈ components, IsComponent component) :
    resolve? components = some components :=
  foldlM_resolveStep? proper []

end Resolving

end Text

end AddonExchange
