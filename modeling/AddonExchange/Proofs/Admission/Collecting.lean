import AddonExchange.Proofs.Admission.CaseClash
import AddonExchange.Proofs.Admission.IllegalNames

/-! The checks of a tree in their two modes. What the collecting check adds to a list is a report
that depends on the tree alone and follows its recursion; the check that stops at the first finding
succeeds exactly where this report is empty. -/

namespace AddonExchange

section Findings

variable (findings : Findings)

private theorem Findings.add_nil : findings.add [] = findings := by
  rw [add, List.length_nil, Nat.add_zero, List.append_nil]

private theorem Findings.add_append (first second : List Text) :
    findings.add (first ++ second) = (findings.add first).add second := by
  rw [add, add, add, List.length_append, Nat.add_assoc, List.append_assoc]

/-- Paths reported for each of several items are reported together. -/
theorem Findings.foldl_add {α : Type} (items : List α) (paths : α → List Text) :
    items.foldl (fun done item => done.add (paths item)) findings =
      findings.add (items.flatMap paths) := by
  induction items generalizing findings with
  | nil => exact findings.add_nil.symm
  | cons item rest ih => rw [List.foldl_cons, ih, List.flatMap_cons, add_append]

private theorem Findings.count_add_beq_zero (list paths : List Text) :
    (((Findings.mk 0 list).add paths).count == 0) = paths.isEmpty := by
  cases paths <;> simp [add]

end Findings

namespace IllegalNames

open Findings (inside)

variable {path : Text}

/-- The place of a name, if the name is to be reported. -/
def reportName (name place : Text) : List Text :=
  if Name.isLegalFile name then [] else [place]

theorem flatMap_reportName_eq {α : Type} (items : List α) (name place : α → Text) :
    (items.flatMap fun item => reportName (name item) (place item)) =
      (items.filter fun item => !Name.isLegalFile (name item)).map place := by
  induction items with
  | nil => rfl
  | cons item rest ih =>
    rw [List.flatMap_cons, ih, reportName]
    by_cases legal : Name.isLegalFile (name item) = true <;> simp [legal]

mutual

/-- The places of all illegal names in a directory and below it. The path text is that of the
directory, whose own name is left out. -/
def report (path : Text) : Dir → List Text
  | ⟨_, files, dirs⟩ =>
    (files.flatMap fun file => reportName file.name (path ++ file.name)) ++ reportAll path dirs

/-- The same for the subdirectories of a directory, each with its own name first. -/
def reportAll (path : Text) : List Dir → List Text
  | [] => []
  | dir :: rest =>
    reportName dir.name (inside path dir.name) ++ report (inside path dir.name) dir ++
      reportAll path rest

end

def reportDir (path : Text) (dir : Dir) : List Text :=
  reportName dir.name (inside path dir.name) ++ report (inside path dir.name) dir

private theorem reportAll_eq_flatMap (path : Text) (dirs : List Dir) :
    reportAll path dirs = dirs.flatMap (reportDir path) := by
  induction dirs with
  | nil => rfl
  | cons dir rest ih => rw [reportAll, ih, List.flatMap_cons, reportDir]

theorem report_eq (path : Text) (dir : Dir) :
    report path dir =
      (dir.files.flatMap fun file => reportName file.name (path ++ file.name)) ++
        dir.dirs.flatMap (reportDir path) := by
  cases dir
  rw [report, reportAll_eq_flatMap]

private theorem add_reportName (name place : Text) (findings : Findings) :
    (if Name.isLegalFile name then findings else findings.add [place]) =
      findings.add (reportName name place) := by
  rw [reportName]
  split
  · exact findings.add_nil.symm
  · rfl

private theorem noteFiles_eq_add (path : Text) (files : List File) (findings : Findings) :
    noteFiles path files findings =
      findings.add (files.flatMap fun file => reportName file.name (path ++ file.name)) := by
  simp only [noteFiles, add_reportName, Findings.foldl_add]

/-- Visiting what waits adds what is reported of it. -/
theorem collect_eq_add (waiting : List (Text × Dir)) (findings : Findings) :
    collect waiting findings =
      findings.add (waiting.flatMap fun pair => reportDir pair.1 pair.2) := by
  induction waiting, findings using collect.induct with
  | case1 findings => rw [collect, List.flatMap_nil, findings.add_nil]
  | case2 path dir waiting findings here named ih =>
    simp only [here, named, dite_eq_ite, add_reportName, noteFiles_eq_add] at ih
    rw [collect, add_reportName, noteFiles_eq_add, ih, ← Findings.add_append, ← Findings.add_append,
      List.flatMap_append, List.flatMap_cons, reportDir, report_eq, held, List.flatMap_map,
      List.append_assoc, List.append_assoc]

private theorem reportName_eq_nil_iff {name place : Text} :
    reportName name place = [] ↔ Name.isLegalFile name = true := by
  rw [reportName]
  split <;> rename_i legal <;> simp [legal]

private theorem report_eq_nil_iff {dir : Dir} : report path dir = [] ↔ dir.Everywhere Legal := by
  induction dir generalizing path with
  | node name files dirs ih =>
    rw [report_eq, everywhere_legal_iff, List.append_eq_nil_iff, List.flatMap_eq_nil_iff,
      List.flatMap_eq_nil_iff]
    simp only [reportName_eq_nil_iff, reportDir, List.append_eq_nil_iff]
    refine and_congr_right fun _ => forall₂_congr fun child member => ?_
    rw [ih child member]

theorem allLegal_iff_report_eq_nil (tree : Dir) : allLegal tree = true ↔ report [] tree = [] := by
  rw [allLegal_iff, report_eq_nil_iff]

theorem collectInto_eq (list : List Text) (tree : Dir) :
    collectInto list tree = ((report [] tree).isEmpty, list ++ report [] tree) := by
  rw [collectInto, noteFiles_eq_add, collect_eq_add, ← Findings.add_append, held,
    List.flatMap_map, ← report_eq, Findings.count_add_beq_zero]
  rfl

end IllegalNames

namespace CaseClash

open Findings (inside)

variable {path : Text} {seen within : Namespace}

/-- What is reported when the files of a directory are recorded, with the namespace after them. -/
def reportFiles (path : Text) : List File → Namespace → Namespace × List Text
  | [], seen => (seen, [])
  | file :: files, seen =>
    let (seen, paths) := note seen path file.name
    let (seen, further) := reportFiles path files seen
    (seen, paths ++ further)

mutual

/-- What is reported in a directory and below it. The path text is that of the directory. -/
def report (path : Text) : Dir → List Text
  | ⟨_, files, dirs⟩ =>
    let (seen, paths) := reportFiles path files []
    paths ++ reportAll path seen dirs

/-- What is reported when subdirectories are recorded in a namespace, each followed by all that is
reported in it. -/
def reportAll (path : Text) (seen : Namespace) : List Dir → List Text
  | [] => []
  | dir :: rest =>
    let (seen, paths) := note seen path dir.name
    paths ++ report (inside path dir.name) dir ++ reportAll path seen rest

end

theorem report_eq (path : Text) (dir : Dir) :
    report path dir =
      (reportFiles path dir.files []).2 ++
        reportAll path (reportFiles path dir.files []).1 dir.dirs := by
  cases dir
  rw [report]

theorem reportAll_cons (path : Text) (seen : Namespace) (dir : Dir) (rest : List Dir) :
    reportAll path seen (dir :: rest) =
      (note seen path dir.name).2 ++ report (inside path dir.name) dir ++
        reportAll path (note seen path dir.name).1 rest := by
  rw [reportAll]

private theorem noteFiles_eq (path : Text) (files : List File) (seen : Namespace)
    (findings : Findings) :
    noteFiles path files seen findings =
      ((reportFiles path files seen).1, findings.add (reportFiles path files seen).2) := by
  induction files generalizing seen findings with
  | nil => rw [reportFiles, findings.add_nil, noteFiles, List.foldl_nil]
  | cons file rest ih =>
    rw [reportFiles, Findings.add_append, ← ih]
    rfl

/-- Visiting what is left adds what is reported of it. -/
theorem collect_eq_add (stack : List Open) (findings : Findings) :
    collect stack findings =
      findings.add (stack.flatMap fun left => reportAll left.path left.seen left.dirs) := by
  induction stack, findings using collect.induct with
  | case1 findings => rw [collect, List.flatMap_nil, findings.add_nil]
  | case2 seen path outer findings ih =>
    rw [collect, ih, List.flatMap_cons, reportAll, List.nil_append]
  | case3 seen path dir dirs outer findings after paths noted here within found recorded ih =>
    rw [noteFiles_eq, Prod.mk.injEq] at recorded
    obtain ⟨rfl, rfl⟩ := recorded
    simp only [collect, noted, noteFiles_eq]
    rw [ih, List.flatMap_cons, List.flatMap_cons, List.flatMap_cons, reportAll_cons, noted,
      report_eq, ← Findings.add_append, ← Findings.add_append]
    simp only [here, List.append_assoc]

theorem collectInto_eq (list : List Text) (tree : Dir) :
    collectInto list tree = ((report [] tree).isEmpty, list ++ report [] tree) := by
  rw [collectInto, noteFiles_eq]
  dsimp only
  rw [collect_eq_add, ← Findings.add_append, List.flatMap_singleton, ← report_eq,
    Findings.count_add_beq_zero]
  rfl

private theorem freshFiles?_eq_some_iff {files : List File} :
    freshFiles? path files seen = some within ↔ reportFiles path files seen = (within, []) := by
  induction files generalizing seen with
  | nil => simp [freshFiles?, reportFiles]
  | cons file rest ih =>
    rw [freshFiles?, reportFiles]
    cases noted : note seen path file.name with
    | mk after paths =>
      cases paths with
      | nil => simp [ih, Prod.ext_iff]
      | cons first further => simp

private theorem reportFiles_ne_nil {files : List File}
    (unrecorded : freshFiles? path files seen = none) : (reportFiles path files seen).2 ≠ [] := by
  intro nothing
  have recorded := freshFiles?_eq_some_iff.mpr (Prod.ext rfl nothing)
  rw [unrecorded] at recorded
  cases recorded

/-- The visit that stops at a clash succeeds exactly if there is nothing to report. -/
theorem noneAmong_iff_reportAll (stack : List Open) :
    noneAmong stack = true ↔ ∀ left ∈ stack, reportAll left.path left.seen left.dirs = [] := by
  induction stack using noneAmong.induct with
  | case1 => simp [noneAmong]
  | case2 seen path outer ih => simp [noneAmong, ih, reportAll]
  | case3 seen path dir dirs outer after noted within recorded ih =>
    have here := freshFiles?_eq_some_iff.mp recorded
    simp [noneAmong, noted, recorded, ih, reportAll_cons, report_eq, here, and_assoc]
  | case4 seen path dir dirs outer after noted unrecorded =>
    have reported := reportFiles_ne_nil unrecorded
    simp [noneAmong, noted, unrecorded, reportAll_cons, report_eq, reported]
  | case5 seen path dir dirs outer clash =>
    have reported : (note seen path dir.name).2 ≠ [] := by
      intro nothing
      exact clash _ (Prod.ext rfl nothing)
    rw [noneAmong]
    split
    · rename_i noted
      exact (clash _ noted).elim
    · simp [reportAll_cons, reported]

theorem isFree_iff_report_eq_nil (tree : Dir) : isFree tree = true ↔ report [] tree = [] := by
  rw [isFree, report_eq, List.append_eq_nil_iff]
  cases recorded : freshFiles? [] tree.files [] with
  | some seen => simp [noneAmong_iff_reportAll, freshFiles?_eq_some_iff.mp recorded]
  | none => simp [reportFiles_ne_nil recorded]

end CaseClash

/-- A check of a tree that can stop at the first finding or add all findings to a list: both ways
give the same answer, what is added does not depend on the list and comes after what it holds, and
the answer is that of an empty search. -/
structure ModesAgree (passes : Dir → Bool) (collectInto : List Text → Dir → Bool × List Text)
    (find : Dir → List Text) : Prop where
  answer (list : List Text) (tree : Dir) : (collectInto list tree).1 = passes tree
  list (list : List Text) (tree : Dir) : (collectInto list tree).2 = list ++ find tree
  passes_iff (tree : Dir) : passes tree = true ↔ find tree = []

/-- The modes of a check agree if there is a report for each tree that the one adds and that is
empty where the other passes. -/
theorem ModesAgree.of_report {passes : Dir → Bool}
    {collectInto : List Text → Dir → Bool × List Text} {report : Dir → List Text}
    (collected : ∀ list tree, collectInto list tree = ((report tree).isEmpty, list ++ report tree))
    (passed : ∀ tree, passes tree = true ↔ report tree = []) :
    ModesAgree passes collectInto fun tree => (collectInto [] tree).2 where
  answer list tree := by
    rw [collected, Bool.eq_iff_iff, passed, List.isEmpty_iff]
  list list tree := by
    rw [collected, collected, List.nil_append]
  passes_iff tree := by
    rw [collected, List.nil_append, passed]

theorem IllegalNames.modesAgree : ModesAgree allLegal collectInto find :=
  .of_report collectInto_eq allLegal_iff_report_eq_nil

theorem CaseClash.modesAgree : ModesAgree isFree collectInto find :=
  .of_report collectInto_eq isFree_iff_report_eq_nil

/-- Both checks of names, that of illegal ones and that of clashes, answer alike in their two modes
and add to a list exactly what a search finds. -/
theorem name_checks_agree_in_both_modes :
    ModesAgree IllegalNames.allLegal IllegalNames.collectInto IllegalNames.find ∧
      ModesAgree CaseClash.isFree CaseClash.collectInto CaseClash.find :=
  ⟨IllegalNames.modesAgree, CaseClash.modesAgree⟩

end AddonExchange
