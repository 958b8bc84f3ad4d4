import AddonExchange.Proofs.Sync.Depth
import AddonExchange.Proofs.Tree.RoundTrip
import AddonExchange.Service

namespace AddonExchange

private theorem File.dropEmptyHash_hashEntry (file : File) :
    file.hashEntry.dropEmptyHash = file.hashEntry := by
  simp [dropEmptyHash, hashEntry, Option.filter, file.hashOf_ne_nil]

private theorem File.dropEmptyHash_listed (withContents : Bool) (file : File) :
    (file.listed withContents).dropEmptyHash = file.listed withContents := by
  cases withContents with
  | false => rfl
  | true => simp [dropEmptyHash, listed, Option.filter, file.hashOf_ne_nil]

namespace Dir

private theorem dropEmptyHash_missing (withContents : Bool) (source target : Dir) :
    (source.missing withContents target).mapFiles File.dropEmptyHash =
      source.missing withContents target := by
  apply mapFiles_eq_self
  refine everywhere_listed_missing.mono ?_
  intro dir listed file member
  obtain ⟨original, rfl⟩ := listed file member
  exact original.dropEmptyHash_listed withContents

private theorem dropEmptyHash_hashList (workers : Option Int) (dir : Dir) :
    (dir.hashList workers).mapFiles File.dropEmptyHash = dir.hashList workers := by
  rw [hashList_eq_mapFiles, mapFiles_mapFiles]
  congr 1
  funext file
  exact file.dropEmptyHash_hashEntry

/-- A hash list has no contents, so it is written alike with and without escaping. -/
theorem toValue_hashList (escaped other : Bool) (workers : Option Int) (dir : Dir) :
    (dir.hashList workers).toValue escaped = (dir.hashList workers).toValue other := by
  have sameFile : File.toValue escaped ∘ File.hashEntry = File.toValue other ∘ File.hashEntry :=
    rfl
  rw [hashList_eq_mapFiles]
  induction dir with
  | node name files dirs ih =>
    have sameDirs : dirs.map (toValue escaped ∘ mapFiles File.hashEntry) =
        dirs.map (toValue other ∘ mapFiles File.hashEntry) :=
      List.map_congr_left ih
    rw [mapFiles_mk, toValue_eq, toValue_eq, valueWith, valueWith, List.map_map, List.map_map,
      List.map_map, List.map_map, sameFile, sameDirs]

end Dir

namespace Service

variable {client server : Dir}

theorem ingest_toValue (service : Service) (tree : Dir)
    (within : (tree.depth : Int) ≤ service.settings.tree.maxDepth) :
    service.ingest (tree.toValue service.settings.tree.escapedContents) =
      .ok (tree.mapFiles File.dropEmptyHash) :=
  Dir.ofValue_toValue tree within

theorem ingest_hashList (service : Service) (tree : Dir)
    (within : (tree.depth : Int) ≤ service.settings.tree.maxDepth) :
    service.ingest (service.hashList tree) =
      .ok (tree.hashList (some service.settings.sync.hashWorkers)) := by
  rw [hashList, Dir.toValue_hashList false service.settings.tree.escapedContents,
    ingest_toValue, Dir.dropEmptyHash_hashList]
  rwa [Dir.depth_hashList]

theorem ingest_missing (service : Service) (withContents : Bool) (source target : Dir)
    (within : (target.depth : Int) ≤ service.settings.tree.maxDepth) :
    service.ingest
        ((source.missing withContents target).toValue service.settings.tree.escapedContents) =
      .ok (source.missing withContents target) := by
  have shallower := Dir.depth_missing_le withContents source target
  rw [ingest_toValue, Dir.dropEmptyHash_missing]
  omega

theorem updatePack_hashList (service : Service) (client server : Dir)
    (within : (client.depth : Int) ≤ service.settings.tree.maxDepth) :
    service.updatePack (service.hashList client) server =
      .ok (UpdatePack.between client server) := by
  rw [updatePack, ingest_hashList service client within, Except.map, Dir.between_hashList]

theorem isUpToDate_hashList (service : Service) (client server : Dir)
    (within : (client.depth : Int) ≤ service.settings.tree.maxDepth) :
    service.isUpToDate (service.hashList client) server = .ok (client.contains server) := by
  rw [isUpToDate, ingest_hashList service client within, Except.map, Dir.contains_hashList]

/-- Under any settings whose depth limit both trees keep, the server makes the client's pack
from its hash list, the client reads both parts of the rendered pack as they are, and after
applying them the server finds nothing more to do. -/
theorem exchange_brings_up_to_date (service : Service) (clientUnique : client.SiblingUnique)
    (serverUnique : server.SiblingUnique)
    (clientWithin : (client.depth : Int) ≤ service.settings.tree.maxDepth)
    (serverWithin : (server.depth : Int) ≤ service.settings.tree.maxDepth) :
    let pack := UpdatePack.between client server
    service.updatePack (service.hashList client) server = .ok pack ∧
      ∃ removed added removals additions,
        (service.render pack).get? (Text.ofString "removelist") = some removed ∧
        (service.render pack).get? (Text.ofString "addlist") = some added ∧
        service.ingest removed = .ok removals ∧ removals = pack.removals ∧
        service.ingest added = .ok additions ∧ additions = pack.additions ∧
        let result := client.apply ⟨removals, additions⟩
        result.contains server = true ∧ server.contains result = true ∧
          service.isUpToDate (service.hashList result) server = .ok true ∧
          ∃ further, service.updatePack (service.hashList result) server = .ok further ∧
            further.isEmpty = true := by
  intro pack
  have removalsRead : service.ingest
      (pack.removals.toValue service.settings.tree.escapedContents) = .ok pack.removals := by
    rw [UpdatePack.removals_between]
    exact ingest_missing service false server client clientWithin
  have additionsRead : service.ingest
      (pack.additions.toValue service.settings.tree.escapedContents) = .ok pack.additions := by
    rw [UpdatePack.additions_between]
    exact ingest_missing service true client server serverWithin
  have sync : (client.apply pack).InSync server := (Dir.InSync.refl clientUnique).step serverUnique
  have resultWithin : ((client.apply pack).depth : Int) ≤ service.settings.tree.maxDepth := by
    have bounded : (client.apply pack).depth ≤ max client.depth server.depth :=
      Dir.depth_apply_between_le (Nat.le_max_left client.depth server.depth)
        (Nat.le_max_right client.depth server.depth)
    omega
  refine ⟨updatePack_hashList service client server clientWithin, _, _, _, _, ?_, ?_,
    removalsRead, rfl, additionsRead, rfl, sync.holds, sync.held, ?_, ?_⟩
  · rfl
  · rfl
  · rw [isUpToDate_hashList service _ server resultWithin]
    exact congrArg Except.ok sync.holds
  · refine ⟨_, updatePack_hashList service _ server resultWithin, ?_⟩
    exact UpdatePack.isEmpty_between_iff.mpr ⟨sync.holds, sync.held⟩

/-- Settings that allow no deeper trees than the releases are. -/
def tightSettings : Settings := { tree := { maxDepth := 2 }, sync := { hashWorkers := 4 } }

theorem exchange_brings_up_to_date_release :
    let service : Service := ⟨tightSettings⟩
    let client := Dir.oldRelease
    let server := Dir.newRelease
    client.SiblingUnique ∧ server.SiblingUnique ∧ (client.depth : Int) ≤ 2 ∧
      (server.depth : Int) ≤ 2 ∧
      let pack := UpdatePack.between client server
      service.updatePack (service.hashList client) server = .ok pack ∧
        ∃ removed added removals additions,
          (service.render pack).get? (Text.ofString "removelist") = some removed ∧
          (service.render pack).get? (Text.ofString "addlist") = some added ∧
          service.ingest removed = .ok removals ∧ removals = pack.removals ∧
          service.ingest added = .ok additions ∧ additions = pack.additions ∧
          let result := client.apply ⟨removals, additions⟩
          result.contains server = true ∧ server.contains result = true ∧
            service.isUpToDate (service.hashList result) server = .ok true ∧
            ∃ further, service.updatePack (service.hashList result) server = .ok further ∧
              further.isEmpty = true := by
  intro service client server
  have clientUnique : client.SiblingUnique := by decide
  have serverUnique : server.SiblingUnique := by decide
  have clientWithin : (client.depth : Int) ≤ 2 := by decide
  have serverWithin : (server.depth : Int) ≤ 2 := by decide
  exact ⟨clientUnique, serverUnique, clientWithin, serverWithin,
    exchange_brings_up_to_date service clientUnique serverUnique clientWithin serverWithin⟩

end Service

end AddonExchange
