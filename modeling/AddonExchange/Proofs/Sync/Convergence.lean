import AddonExchange.Proofs.Sync.Addition
import AddonExchange.Proofs.Sync.Difference
import AddonExchange.Proofs.Sync.FileHash

/-! Updating makes trees agree. A pack brings not only the tree it was made from to its target
but every tree that holds the same files, which is why packs made from one version to the next
keep a client up to date for good. -/

namespace AddonExchange

namespace UpdatePack

variable {source target : Dir}

theorem removals_between (source target : Dir) :
    (between source target).removals = target.missing false source :=
  Dir.difference_eq_missing false target source

theorem additions_between (source target : Dir) :
    (between source target).additions = source.missing true target :=
  Dir.difference_eq_missing true source target

theorem removalsUnique_between (sourceUnique : source.SiblingUnique) :
    (between source target).removals.SiblingUnique := by
  rw [removals_between]
  exact sourceUnique.missing

theorem additionsUnique_between (targetUnique : target.SiblingUnique) :
    (between source target).additions.SiblingUnique := by
  rw [additions_between]
  exact targetUnique.missing

theorem isEmpty_between_iff :
    (between source target).isEmpty = true ↔
      source.contains target = true ∧ target.contains source = true := by
  rw [isEmpty, Bool.and_eq_true, removals_between, additions_between, Dir.isEmpty_missing_iff,
    Dir.isEmpty_missing_iff, and_comm]

end UpdatePack

namespace Dir

variable {client source target : Dir}

section Paths

/-- What a client that holds the files of the source has under each path after the update to
the target: its own file where the source had the right one, else the target's. -/
theorem lookup?_apply_between (clientUnique : client.SiblingUnique)
    (sourceUnique : source.SiblingUnique) (targetUnique : target.SiblingUnique)
    (same : ∀ path name, client.hashAt? path name = source.hashAt? path name)
    (path : List Text) (name : Text) :
    (client.apply (UpdatePack.between source target)).lookup? path name =
      (target.lookup? path name).bind fun file =>
        if source.hashAt? path name = some file.hashOf then client.lookup? path name
        else some (file.listed true) := by
  have removalsUnique : (UpdatePack.between source target).removals.SiblingUnique :=
    UpdatePack.removalsUnique_between sourceUnique
  have additionsUnique : (UpdatePack.between source target).additions.SiblingUnique :=
    UpdatePack.additionsUnique_between targetUnique
  rw [lookup?_apply clientUnique removalsUnique additionsUnique, UpdatePack.removals_between,
    UpdatePack.additions_between, lookup?_missing targetUnique sourceUnique,
    lookup?_missing sourceUnique targetUnique]
  have sameHere := same path name
  cases wanted : target.lookup? path name with
  | none =>
    -- A file that the target lacks is among the removals as soon as the source has one.
    cases former : source.lookup? path name with
    | none =>
      have clientLacks : client.lookup? path name = none := by
        simpa [hashAt?, former] using sameHere
      simp [clientLacks]
    | some old => simp [hashAt?, wanted]
  | some file =>
    by_cases kept : source.hashAt? path name = some file.hashOf
    · obtain ⟨old, former, sameHash⟩ := Option.map_eq_some_iff.mp kept
      simp [hashAt?, wanted, former, sameHash]
    · simp [kept]

theorem hashAt?_apply_between (clientUnique : client.SiblingUnique)
    (sourceUnique : source.SiblingUnique) (targetUnique : target.SiblingUnique)
    (same : ∀ path name, client.hashAt? path name = source.hashAt? path name)
    (path : List Text) (name : Text) :
    (client.apply (UpdatePack.between source target)).hashAt? path name =
      target.hashAt? path name := by
  change Option.map File.hashOf _ = Option.map File.hashOf (target.lookup? path name)
  rw [lookup?_apply_between clientUnique sourceUnique targetUnique same]
  cases target.lookup? path name with
  | none => rfl
  | some file =>
    rw [Option.bind_some, Option.map_some]
    split
    · rename_i kept
      rw [← kept]
      exact same path name
    · rw [Option.map_some, File.hashOf_listed]

end Paths

section Sync

/-- A client is in sync with a server if the trees of both have distinct siblings and contain
each other. -/
structure InSync (client server : Dir) : Prop where
  clientUnique : client.SiblingUnique
  serverUnique : server.SiblingUnique
  holds : client.contains server = true
  held : server.contains client = true

variable {server next : Dir}

theorem InSync.hashAt? (sync : InSync client server) (path : List Text) (name : Text) :
    client.hashAt? path name = server.hashAt? path name :=
  (contains_both_iff sync.clientUnique sync.serverUnique).mp ⟨sync.holds, sync.held⟩ path name

theorem InSync.identities (sync : InSync client server) :
    client.identities = server.identities :=
  Set.Subset.antisymm ((contains_iff_subset sync.serverUnique).mp sync.held)
    ((contains_iff_subset sync.clientUnique).mp sync.holds)

theorem InSync.refl (unique : server.SiblingUnique) : InSync server server := by
  obtain ⟨holds, held⟩ :=
    (contains_both_iff unique unique).mpr fun _ _ => rfl
  exact ⟨unique, unique, holds, held⟩

/-- An update of the server carries over to every client in sync with it. -/
theorem InSync.step (sync : InSync client server) (nextUnique : next.SiblingUnique) :
    InSync (client.apply (UpdatePack.between server next)) next := by
  have updatedUnique := sync.clientUnique.apply (UpdatePack.between server next)
  have sameHashes :=
    hashAt?_apply_between sync.clientUnique sync.serverUnique nextUnique sync.hashAt?
  obtain ⟨holds, held⟩ := (contains_both_iff updatedUnique nextUnique).mpr sameHashes
  exact ⟨updatedUnique, nextUnique, holds, held⟩

/-- A release with a file to change, one to keep and one to drop, and a directory that will
not be needed any more. -/
def oldRelease : Dir :=
  ⟨"addon",
    [⟨"main.cfg", some [0x61], none⟩, ⟨"kept.cfg", some [0x62], some (contentHash [0x62])⟩],
    [⟨"maps", [⟨"first.map", some [0x00, 0xFE], none⟩], []⟩, ⟨"old", [⟨"gone", none, none⟩], []⟩]⟩

/-- The release after it, with a new file in a new directory. -/
def newRelease : Dir :=
  ⟨"addon", [⟨"kept.cfg", some [0x62], none⟩, ⟨"main.cfg", some [0x63], none⟩],
    [⟨"units", [], [⟨"elves", [⟨"archer.cfg", some [], none⟩], []⟩]⟩,
      ⟨"maps", [⟨"first.map", some [0x00, 0xFE], none⟩], []⟩]⟩

/-- A copy of the first release in another order, with a cached hash and an empty directory. -/
def installedCopy : Dir :=
  ⟨"copy", [⟨"kept.cfg", none, some (contentHash [0x62])⟩, ⟨"main.cfg", some [0x61], none⟩],
    [⟨"old", [⟨"gone", some [], none⟩], []⟩, ⟨"saves", [], []⟩,
      ⟨"maps", [⟨"first.map", some [0x00, 0xFE], some []⟩], []⟩]⟩

/-- Applying the pack between two trees to the first gives a tree that holds the same files as
the second, so that no further pack is needed. -/
theorem apply_between_reaches_target (sourceUnique : source.SiblingUnique)
    (targetUnique : target.SiblingUnique) :
    let result := source.apply (UpdatePack.between source target)
    result.SiblingUnique ∧ result.contains target = true ∧ target.contains result = true ∧
      result.identities = target.identities ∧
      (UpdatePack.between result target).isEmpty = true := by
  intro result
  have sync : InSync result target := (InSync.refl sourceUnique).step targetUnique
  exact ⟨sync.clientUnique, sync.holds, sync.held, sync.identities,
    UpdatePack.isEmpty_between_iff.mpr ⟨sync.holds, sync.held⟩⟩

theorem apply_between_reaches_target_release :
    oldRelease.SiblingUnique ∧ newRelease.SiblingUnique ∧
      let result := oldRelease.apply (UpdatePack.between oldRelease newRelease)
      result.SiblingUnique ∧ result.contains newRelease = true ∧
        newRelease.contains result = true ∧ result.identities = newRelease.identities ∧
        (UpdatePack.between result newRelease).isEmpty = true := by
  have oldUnique : oldRelease.SiblingUnique := by decide
  have newUnique : newRelease.SiblingUnique := by decide
  exact ⟨oldUnique, newUnique, apply_between_reaches_target oldUnique newUnique⟩

/-- The client after so many updates, each by the pack from one server version to the next. -/
def afterUpdates (client : Dir) (versions : Nat → Dir) : Nat → Dir
  | 0 => client
  | count + 1 =>
    (client.afterUpdates versions count).apply
      (UpdatePack.between (versions count) (versions (count + 1)))

theorem InSync.afterUpdates {versions : Nat → Dir} {last : Nat}
    (versionsUnique : ∀ index ≤ last, (versions index).SiblingUnique)
    (start : InSync client (versions 0)) :
    ∀ count ≤ last, InSync (client.afterUpdates versions count) (versions count) := by
  intro count
  induction count with
  | zero =>
    intro _
    exact start
  | succ count ih =>
    intro bound
    exact (ih (Nat.le_of_succ_le bound)).step (versionsUnique (count + 1) bound)

/-- Packs made from one server version to the next keep every client in sync, however many
versions follow and whatever the client's own order, cached hashes and empty directories. -/
theorem afterUpdates_in_sync {versions : Nat → Dir} {last : Nat}
    (versionsUnique : ∀ index ≤ last, (versions index).SiblingUnique)
    (clientUnique : client.SiblingUnique) (holds : client.contains (versions 0) = true)
    (held : (versions 0).contains client = true) :
    ∀ count ≤ last,
      (client.afterUpdates versions count).SiblingUnique ∧
        (client.afterUpdates versions count).contains (versions count) = true ∧
        (versions count).contains (client.afterUpdates versions count) = true := by
  intro count bound
  have start : InSync client (versions 0) :=
    ⟨clientUnique, versionsUnique 0 (Nat.zero_le last), holds, held⟩
  have sync := InSync.afterUpdates versionsUnique start count bound
  exact ⟨sync.clientUnique, sync.holds, sync.held⟩

/-- A server that goes back and forth between two releases. -/
def alternating (index : Nat) : Dir := if index % 2 = 0 then oldRelease else newRelease

theorem afterUpdates_in_sync_alternating :
    (∀ index ≤ 3, (alternating index).SiblingUnique) ∧ installedCopy.SiblingUnique ∧
      installedCopy.contains (alternating 0) = true ∧
      (alternating 0).contains installedCopy = true ∧
      ∀ count ≤ 3,
        (installedCopy.afterUpdates alternating count).SiblingUnique ∧
          (installedCopy.afterUpdates alternating count).contains (alternating count) = true ∧
          (alternating count).contains (installedCopy.afterUpdates alternating count) = true := by
  have versionsUnique : ∀ index ≤ 3, (alternating index).SiblingUnique := by
    intro index _
    unfold alternating
    split <;> decide
  have copyUnique : installedCopy.SiblingUnique := by decide
  have holds : installedCopy.contains (alternating 0) = true := by decide +kernel
  have held : (alternating 0).contains installedCopy = true := by decide +kernel
  exact ⟨versionsUnique, copyUnique, holds, held,
    afterUpdates_in_sync versionsUnique copyUnique holds held⟩

end Sync

end Dir

end AddonExchange
