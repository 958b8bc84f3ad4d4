import AddonExchange.Proofs.Sync.Convergence

/-! Containment as an order on trees. It is transitive whatever names the trees repeat, since a
directory that the tree in the middle lacks is compared as an empty one on both sides. It is
reflexive where subdirectories have distinct names; of several with one name only the first is ever
found. -/

namespace AddonExchange.Dir

variable {outer middle inner tree : Dir}

/-- No two subdirectories of a directory share a name. Files may. -/
def DirsDistinct (dir : Dir) : Prop := (dir.dirs.map Dir.name).Nodup

instance : DecidablePred DirsDistinct := fun dir =>
  inferInstanceAs (Decidable (dir.dirs.map Dir.name).Nodup)

theorem contains_empty (source : Dir) (name : Text) :
    source.contains ⟨name, [], []⟩ = true := by
  rw [contains_eq]
  rfl

/-- Containment passes on to the counterparts of any name, found or not. -/
theorem contains_counterpart (holds : outer.contains middle = true) (name : Text) :
    (outer.counterpart name).contains (middle.counterpart name) = true := by
  cases found : middle.findDir? name with
  | none =>
    rw [counterpart_of_absent found]
    exact contains_empty _ name
  | some child =>
    have below := ((contains_iff outer middle).mp holds).2 child (findDir?_mem found)
    rw [findDir?_name found] at below
    rw [counterpart_of_found found]
    exact below

theorem contains_trans (holds : outer.contains middle = true)
    (held : middle.contains inner = true) : outer.contains inner = true := by
  induction inner generalizing outer middle with
  | node name files dirs ih =>
    obtain ⟨middleKeys, _⟩ := (contains_iff outer middle).mp holds
    obtain ⟨innerKeys, below⟩ := (contains_iff middle _).mp held
    rw [contains_iff]
    constructor
    · intro file member
      have known : file.key ∈ middle.fileKeys := innerKeys file member
      obtain ⟨other, otherMember, same⟩ := List.mem_map.mp known
      rw [← same]
      exact middleKeys other otherMember
    · intro child member
      exact ih child member (contains_counterpart holds child.name) (below child member)

theorem contains_self (distinct : tree.Everywhere DirsDistinct) :
    tree.contains tree = true := by
  induction tree with
  | node name files dirs ih =>
    rw [contains_iff]
    constructor
    · intro file member
      exact List.mem_map_of_mem member
    · intro child member
      have found : findDir? ⟨name, files, dirs⟩ child.name = some child :=
        (find?_eq_some_iff_of_nodup distinct.root).mpr ⟨member, rfl⟩
      rw [counterpart_of_found found]
      exact ih child member (distinct.child member)

/-- Containment is transitive on all trees and reflexive on those whose subdirectories have distinct
names. There is nothing to do from such a tree to itself. -/
theorem contains_preorder :
    (∀ outer middle inner : Dir, outer.contains middle = true → middle.contains inner = true →
        outer.contains inner = true) ∧
      ∀ tree : Dir, tree.Everywhere DirsDistinct →
        tree.contains tree = true ∧ (UpdatePack.between tree tree).isEmpty = true := by
  constructor
  · intro outer middle inner holds held
    exact contains_trans holds held
  · intro tree distinct
    have self := contains_self distinct
    exact ⟨self, UpdatePack.isEmpty_between_iff.mpr ⟨self, self⟩⟩

/-- A server that has two versions of a file under one name. -/
def mirroredServer : Dir :=
  ⟨"addon", [⟨"main.cfg", none, some "first"⟩, ⟨"main.cfg", none, some "second"⟩],
    [⟨"maps", [⟨"first.map", none, some "map"⟩], []⟩, ⟨"units", [], []⟩]⟩

/-- A mirror of it with more files, another order and a directory of a name taken before. -/
def wideMirror : Dir :=
  ⟨"mirror", [⟨"main.cfg", none, some "second"⟩, ⟨"notes", none, none⟩,
      ⟨"main.cfg", none, some "first"⟩],
    [⟨"maps", [⟨"first.map", none, some "map"⟩], []⟩, ⟨"maps", [], []⟩]⟩

/-- A part of the server with a repeated directory and one that the server lacks. -/
def narrowCopy : Dir :=
  ⟨"copy", [⟨"main.cfg", none, some "second"⟩],
    [⟨"drafts", [], [⟨"maps", [], []⟩]⟩, ⟨"maps", [], []⟩,
      ⟨"maps", [⟨"first.map", none, some "map"⟩], []⟩]⟩

theorem contains_preorder_mirror :
    wideMirror.contains mirroredServer = true ∧ mirroredServer.contains narrowCopy = true ∧
      wideMirror.contains narrowCopy = true ∧ mirroredServer.Everywhere DirsDistinct ∧
      mirroredServer.contains mirroredServer = true ∧
      (UpdatePack.between mirroredServer mirroredServer).isEmpty = true := by
  obtain ⟨transitive, reflexive⟩ := contains_preorder
  have holds : wideMirror.contains mirroredServer = true := by decide +kernel
  have held : mirroredServer.contains narrowCopy = true := by decide +kernel
  have distinct : mirroredServer.Everywhere DirsDistinct := by decide
  exact ⟨holds, held, transitive _ _ _ holds held, distinct, reflexive _ distinct⟩

end AddonExchange.Dir
