import AddonExchange.Proofs.Sync.Convergence

/-! Updating brings the right contents. Trees are compared by hashes alone, and a cached hash is
believed; where cached hashes fit and no two contents in play share a hash, the updated tree
has the target's bytes under each path. -/

namespace AddonExchange

namespace File

/-- The contents of a file, empty where they are absent. -/
def bytes (file : File) : Bytes := file.contents.getD []

/-- A hash that a file carries, unless it is empty, is that of its contents. -/
def HashFits (file : File) : Prop :=
  ∀ hash ∈ file.hash, hash ≠ [] → hash = contentHash file.bytes

theorem HashFits.hashOf {file : File} (fits : file.HashFits) :
    file.hashOf = contentHash file.bytes := by
  unfold File.hashOf
  split
  · rename_i first rest carried
    exact fits (first :: rest) carried (List.cons_ne_nil first rest)
  · rfl

private theorem bytes_listed (file : File) : (file.listed true).bytes = file.bytes := rfl

end File

namespace Dir

/-- Every hash that a file of the tree carries fits its contents. -/
def HashesFit (tree : Dir) : Prop :=
  tree.Everywhere fun dir => ∀ file ∈ dir.files, file.HashFits

/-- The contents of the files of a tree, wherever they are. -/
def storedContents (tree : Dir) : Set Bytes :=
  { bytes | ∃ path holder, tree.At path holder ∧ ∃ file ∈ holder.files, file.bytes = bytes }

variable {source target tree : Dir}

theorem HashesFit.lookup? (fits : tree.HashesFit) {path : List Text} {name : Text} {file : File}
    (found : tree.lookup? path name = some file) : file.hashOf = contentHash file.bytes := by
  obtain ⟨holder, reached, member, _⟩ := at_of_lookup? found
  exact (Everywhere.at fits reached file member).hashOf

theorem bytes_mem_storedContents {path : List Text} {name : Text} {file : File}
    (found : tree.lookup? path name = some file) : file.bytes ∈ tree.storedContents := by
  obtain ⟨holder, reached, member, _⟩ := at_of_lookup? found
  exact ⟨path, holder, reached, file, member, rfl⟩

theorem storedContents_subset {contents : Set Bytes}
    (stored : tree.Everywhere fun dir => ∀ file ∈ dir.files, file.bytes ∈ contents) :
    tree.storedContents ⊆ contents := by
  rintro bytes ⟨path, holder, reached, file, member, rfl⟩
  exact stored.at reached file member

/-- Under each path the updated tree and the target have no file or two of the same contents,
if cached hashes fit and different contents of the two trees have different hashes. -/
theorem bytes_apply_between (sourceUnique : source.SiblingUnique)
    (targetUnique : target.SiblingUnique) (sourceFits : source.HashesFit)
    (targetFits : target.HashesFit)
    (injective : Set.InjOn contentHash (source.storedContents ∪ target.storedContents))
    (path : List Text) (name : Text) :
    ((source.apply (UpdatePack.between source target)).lookup? path name).map File.bytes =
      (target.lookup? path name).map File.bytes := by
  rw [lookup?_apply_between sourceUnique sourceUnique targetUnique fun _ _ => rfl]
  cases wanted : target.lookup? path name with
  | none => rfl
  | some file =>
    rw [Option.bind_some, Option.map_some]
    split
    · -- The source's own file stays, and only its hash is known to be the target's.
      rename_i kept
      obtain ⟨old, former, sameHash⟩ := Option.map_eq_some_iff.mp kept
      have sameDigest : contentHash old.bytes = contentHash file.bytes := by
        rw [← sourceFits.lookup? former, ← targetFits.lookup? wanted, sameHash]
      have sameBytes := injective (Or.inl (bytes_mem_storedContents former))
        (Or.inr (bytes_mem_storedContents wanted)) sameDigest
      rw [former, Option.map_some, sameBytes]
    · rw [Option.map_some, File.bytes_listed]

def releasedContents : List Bytes := [[0x61], [0x62], [0x63], [0x00, 0xFE], []]

theorem bytes_apply_between_release :
    oldRelease.SiblingUnique ∧ newRelease.SiblingUnique ∧ oldRelease.HashesFit ∧
      newRelease.HashesFit ∧
      Set.InjOn contentHash (oldRelease.storedContents ∪ newRelease.storedContents) ∧
      ∀ path name,
        ((oldRelease.apply (UpdatePack.between oldRelease newRelease)).lookup? path name).map
          File.bytes = (newRelease.lookup? path name).map File.bytes := by
  have oldUnique : oldRelease.SiblingUnique := by decide
  have newUnique : newRelease.SiblingUnique := by decide
  have oldFits : oldRelease.HashesFit := by
    simp [HashesFit, oldRelease, Everywhere, AllEverywhere, File.HashFits, File.bytes]
  have newFits : newRelease.HashesFit := by
    simp [HashesFit, newRelease, Everywhere, AllEverywhere, File.HashFits]
  have oldStored : oldRelease.storedContents ⊆ { bytes | bytes ∈ releasedContents } :=
    storedContents_subset (by decide)
  have newStored : newRelease.storedContents ⊆ { bytes | bytes ∈ releasedContents } :=
    storedContents_subset (by decide)
  have distinctHashes : ∀ first ∈ releasedContents, ∀ second ∈ releasedContents,
      contentHash first = contentHash second → first = second := by
    decide +kernel
  have injective :
      Set.InjOn contentHash (oldRelease.storedContents ∪ newRelease.storedContents) := by
    intro first firstStored second secondStored
    exact distinctHashes first (Set.union_subset oldStored newStored firstStored) second
      (Set.union_subset oldStored newStored secondStored)
  exact ⟨oldUnique, newUnique, oldFits, newFits, injective,
    bytes_apply_between oldUnique newUnique oldFits newFits injective⟩

end Dir

end AddonExchange
