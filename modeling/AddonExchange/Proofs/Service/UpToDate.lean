import AddonExchange.Proofs.Service.Exchange
import AddonExchange.Proofs.Sync.Entries

/-! Whether anything is missing can be asked in three ways. Containment stops at the first
missing file, a difference collects all of them and drops the directories in which it finds
none, and the service answers a client for which it would make a pack. All of them agree, also
where directories are new and empty or names repeat. -/

namespace AddonExchange

private theorem Dir.changed_iff_exists_file (withContents : Bool) (source target : Dir) :
    (source.changes withContents target).2 = true ↔
      ∃ path name, (source.changes withContents target).1.HasEntry path (.file name) := by
  rw [changes_eq, Bool.not_eq_true']
  exact isEmpty_eq_false_iff_of_pruned (pruned_missing withContents)

namespace Service

/-- For a client that can be read, the answer whether it is up to date and the pack for it are
both given, and the answer says whether the pack has nothing to add. -/
theorem isUpToDate_eq_isEmpty_additions (service : Service) {client : Value} {held : Dir}
    (read : service.ingest client = .ok held) (server : Dir) :
    ∃ pack, service.updatePack client server = .ok pack ∧
      service.isUpToDate client server = .ok pack.additions.isEmpty := by
  refine ⟨UpdatePack.between held server, ?_, ?_⟩
  · rw [updatePack, read, Except.map]
  · have sameAnswer :
        held.contains server = (UpdatePack.between held server).additions.isEmpty := by
      rw [Bool.eq_iff_iff, UpdatePack.additions_between, Dir.isEmpty_missing_iff]
    rw [isUpToDate, read, Except.map, sameAnswer]

/-- A difference says that it has something in it exactly if containment fails, and then there
is a file in it. So a pack is empty between trees that contain each other, and a client that
can be read is up to date exactly if the pack for it adds nothing. -/
theorem update_checks_agree (withContents : Bool) (source target : Dir) :
    let part := (source.changes withContents target).1
    let changed := (source.changes withContents target).2
    changed = !source.contains target ∧
      (changed = true ↔ ∃ path name, part.HasEntry path (.file name)) ∧
      ((UpdatePack.between source target).isEmpty = true ↔
        source.contains target = true ∧ target.contains source = true) ∧
      ∀ (service : Service) (client : Value) (held : Dir), service.ingest client = .ok held →
        ∃ upToDate pack, service.isUpToDate client target = .ok upToDate ∧
          service.updatePack client target = .ok pack ∧
          (upToDate = true ↔ pack.additions.isEmpty = true) := by
  refine ⟨Dir.changed_eq_not_contains, Dir.changed_iff_exists_file withContents source target,
    UpdatePack.isEmpty_between_iff, ?_⟩
  intro service client held read
  obtain ⟨pack, made, answered⟩ := isUpToDate_eq_isEmpty_additions service read target
  exact ⟨pack.additions.isEmpty, pack, answered, made, Iff.rfl⟩

/-- A tree in which a name is taken twice, once by a directory with nothing but an empty
directory in it. -/
def repeatedNames : Dir :=
  ⟨"addon", [⟨"main.cfg", some [0x61], none⟩, ⟨"main.cfg", some [0x62], none⟩],
    [⟨"maps", [], [⟨"drafts", [], []⟩]⟩, ⟨"maps", [⟨"first.map", none, none⟩], []⟩]⟩

theorem update_checks_agree_repeatedNames :
    let service : Service := ⟨tightSettings⟩
    let client := service.hashList repeatedNames
    service.ingest client = .ok (repeatedNames.hashList (some 4)) ∧
      ∃ upToDate pack, service.isUpToDate client repeatedNames = .ok upToDate ∧
        service.updatePack client repeatedNames = .ok pack ∧
        (upToDate = true ↔ pack.additions.isEmpty = true) := by
  intro service client
  have within : (repeatedNames.depth : Int) ≤ 2 := by decide
  have read : service.ingest client = .ok (repeatedNames.hashList (some 4)) :=
    ingest_hashList service repeatedNames within
  obtain ⟨_, _, _, checksAgree⟩ := update_checks_agree true repeatedNames repeatedNames
  exact ⟨read, checksAgree service client _ read⟩

end Service

end AddonExchange
