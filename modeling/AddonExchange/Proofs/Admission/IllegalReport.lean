import AddonExchange.Proofs.Admission.Collecting
import AddonExchange.Proofs.Tree.Visit

namespace AddonExchange.IllegalNames

open Findings (inside)

/-- The place under which an entry is reported: its path, with a slash behind it if the entry is a
directory. -/
def place : LocatedEntry → Text
  | (names, .file name) => Text.dirPath names ++ name
  | (names, .dir name) => Text.dirPath (names ++ [name])

def isIllegal (located : LocatedEntry) : Bool := !Name.isLegalFile located.2.name

def reportEntry (located : LocatedEntry) : List Text :=
  reportName located.2.name (place located)

def reportMet (meeting : Meeting) : List Text := reportEntry meeting.located

private theorem flatMap_reportMet (meetings : List Meeting) :
    meetings.flatMap reportMet = (meetings.map Meeting.located).flatMap reportEntry := by
  rw [List.flatMap_map]
  rfl

private theorem flatMap_reportMet_meet (names : List Text) (files : List File) :
    (Dir.meet names [] (Dir.fileEntries files)).flatMap reportMet =
      files.flatMap fun file =>
        reportName file.name (Text.dirPath names ++ file.name) := by
  rw [flatMap_reportMet, Dir.map_located_meet, Dir.fileEntries, List.flatMap_map, List.flatMap_map,
    List.flatMap_map]
  rfl

/-- What is reported of subdirectories is what is reported when they are met and visited, if that
holds of what is in them. -/
theorem flatMap_reportMet_visitAll {dirs : List Dir} {names : List Text}
    (below : ∀ child ∈ dirs, ∀ names,
      report (Text.dirPath names) child = (child.visitFrom names).flatMap reportMet)
    (earlier : List Entry) :
    (Dir.visitAll names earlier dirs).flatMap reportMet =
      dirs.flatMap (reportDir (Text.dirPath names)) := by
  induction dirs generalizing earlier with
  | nil => rfl
  | cons dir rest ih =>
    obtain ⟨dirBelow, restBelow⟩ := List.forall_mem_cons.mp below
    rw [Dir.visitAll, List.flatMap_append, List.flatMap_cons, ih restBelow, List.flatMap_cons,
      reportDir, inside_dirPath, dirBelow]
    rfl

theorem report_dirPath (names : List Text) (tree : Dir) :
    report (Text.dirPath names) tree = (tree.visitFrom names).flatMap reportMet := by
  induction tree generalizing names with
  | node own files dirs ih =>
    rw [report_eq, Dir.visitFrom, List.flatMap_append, flatMap_reportMet_meet,
      flatMap_reportMet_visitAll ih]

/-- The search for illegal names goes through a tree in depth: for each directory it gives the
files of illegal names, and then for each subdirectory its own name, if that is illegal, and what
there is in it. So it finds each entry of an illegal name once and no others. -/
theorem illegal_names_found_exactly (tree : Dir) :
    find tree = report [] tree ∧
      (∀ path dir, report path dir =
        ((dir.files.filter fun file => !Name.isLegalFile file.name).map fun file =>
          path ++ file.name) ++
        dir.dirs.flatMap fun child =>
          (if Name.isLegalFile child.name then [] else [inside path child.name]) ++
            report (inside path child.name) child) ∧
      (find tree).Perm ((tree.locatedEntries.filter isIllegal).map place) := by
  have reported : find tree = report [] tree := by
    rw [find, collectInto_eq, List.nil_append]
  refine ⟨reported, ?_, ?_⟩
  · intro path dir
    rw [report_eq, flatMap_reportName_eq]
    rfl
  · have visited : report [] tree = tree.visit.flatMap reportMet := report_dirPath [] tree
    have found (entries : List LocatedEntry) :
        entries.flatMap reportEntry = (entries.filter isIllegal).map place :=
      flatMap_reportName_eq entries (fun located => located.2.name) place
    rw [reported, visited, flatMap_reportMet, found]
    exact (tree.map_located_visit_perm.filter isIllegal).map place

end AddonExchange.IllegalNames
