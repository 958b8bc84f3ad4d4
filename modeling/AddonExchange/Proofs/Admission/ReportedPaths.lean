import AddonExchange.Proofs.Admission.Collecting
import AddonExchange.Proofs.Tree.Walk
import Mathlib.Data.List.Flatten

/-! The paths under which illegal names are reported, and those under which a walk lists files. A
report puts a slash behind the name of every directory on the way. A walk puts one only behind a
path that is not empty, so it loses directories of empty name where they come first. Apart from
these both write the path of a file in the same way. -/

namespace AddonExchange

open CodePoint (slash)

namespace Dir

variable {tree : Dir}

def illegalFiles (dir : Dir) : List Text :=
  (dir.files.map File.name).filter fun name => !Name.isLegalFile name

/-- The paths of a walk that lead to files of illegal names. -/
def illegalWalk (tree : Dir) : List Text :=
  (tree.walk.filter fun walked => !Name.isLegalFile walked.2.name).map (·.1)

private theorem illegalWalk_eq (tree : Dir) :
    tree.illegalWalk = (tree.addressed illegalFiles).map Text.joinNames := by
  rw [illegalWalk, walk_eq, List.filter_flatMap, List.map_flatMap, addressed, List.map_flatMap]
  refine List.flatMap_congr fun place _ => ?_
  rw [illegalFiles, List.filter_map, List.filter_map, List.map_map, List.map_map, List.map_map]
  rfl

section Report

open Findings (inside)

private theorem flatMap_reportName (path : Text) (dir : Dir) :
    (dir.files.flatMap fun file => IllegalNames.reportName file.name (path ++ file.name)) =
      dir.illegalFiles.map (path ++ ·) := by
  rw [IllegalNames.flatMap_reportName_eq, illegalFiles, List.filter_map, List.map_map]
  rfl

/-- A slash behind the path so far and the name of a directory is one between them and what
follows. -/
theorem inside_append_intercalate (path first : Text) {names : List Text} (further : names ≠ []) :
    inside path first ++ [slash].intercalate names =
      path ++ [slash].intercalate (first :: names) := by
  cases names with
  | nil => exact absurd rfl further
  | cons second rest =>
    have single : Text.ofString "/" = [slash] := rfl
    simp only [List.intercalate_cons_cons, inside, single, List.append_assoc]

/-- Each file of an illegal name is reported, in the order of the walk, by the path so far and the
names that lead to it. -/
theorem addressed_sublist_report (path : Text) (tree : Dir) :
    ((tree.addressed illegalFiles).map fun names => path ++ [slash].intercalate names).Sublist
      (IllegalNames.report path tree) := by
  induction tree generalizing path with
  | node own files dirs ih =>
    rw [addressed_eq, List.map_append, List.map_map, List.map_flatMap, IllegalNames.report_eq,
      flatMap_reportName]
    refine List.Sublist.append ?_ ?_
    · simp [Function.comp_def]
    · refine List.Sublist.flatMap_right dirs fun child member => ?_
      have below := ih child member (inside path child.name)
      have samePaths : (child.addressed illegalFiles).map
          (fun names => inside path child.name ++ [slash].intercalate names) =
          (child.addressed illegalFiles).map
            fun names => path ++ [slash].intercalate (child.name :: names) := by
        refine List.map_congr_left fun names listed => ?_
        obtain ⟨before, _, name, _, _, rfl⟩ := mem_addressed_iff.mp listed
        exact inside_append_intercalate path child.name (List.concat_ne_nil name before)
      rw [samePaths] at below
      rw [List.map_map]
      exact below.trans (List.sublist_append_right _ _)

end Report

private theorem addressed_sublist_find (tree : Dir) :
    ((tree.addressed illegalFiles).map [slash].intercalate).Sublist (IllegalNames.find tree) := by
  rw [IllegalNames.find, IllegalNames.collectInto_eq, List.nil_append]
  exact addressed_sublist_report [] tree

/-- Files of illegal names are reported in the order of the walk by the names that lead to them,
with slashes between these. That is the path of the walk unless the file is below a directory of
empty name in the root. -/
theorem illegal_files_reported (tree : Dir) :
    ((tree.addressed illegalFiles).map [slash].intercalate).Sublist (IllegalNames.find tree) ∧
      ((∀ names name, tree.HasEntry ([] :: names) (.file name) → Name.isLegalFile name = true) →
        tree.illegalWalk.Sublist (IllegalNames.find tree)) := by
  have reported := addressed_sublist_find tree
  refine ⟨reported, ?_⟩
  intro unnamedLegal
  have samePaths : tree.illegalWalk = (tree.addressed illegalFiles).map [slash].intercalate := by
    rw [illegalWalk_eq]
    refine List.map_congr_left fun address listed => ?_
    obtain ⟨names, holder, name, reached, held, rfl⟩ := mem_addressed_iff.mp listed
    obtain ⟨isFile, illegal⟩ := List.mem_filter.mp held
    refine Text.joinNames_concat_of_head? ?_ name
    intro unnamed
    obtain ⟨rest, rfl⟩ := List.head?_eq_some_iff.mp unnamed
    have entry : Entry.file name ∈ holder.entries :=
      file_mem_entries.mpr (List.mem_map.mp isFile)
    have legal := unnamedLegal rest name ⟨holder, reached, entry⟩
    simp [legal] at illegal
  rw [samePaths]
  exact reported

/-- An add-on with illegal names on several levels, some of them empty. -/
def carelessAddon : Dir :=
  ⟨"addon", [⟨"read me", none, none⟩, ⟨"main.cfg", none, none⟩],
    [⟨"maps", [⟨"~first", none, none⟩], [⟨"", [⟨"", none, none⟩, ⟨"a?", none, none⟩], []⟩]⟩,
      ⟨"", [⟨"main.cfg", none, none⟩], []⟩, ⟨"con", [⟨"nul", none, none⟩], []⟩]⟩

theorem illegal_files_reported_carelessAddon :
    (∀ names name, carelessAddon.HasEntry ([] :: names) (.file name) →
        Name.isLegalFile name = true) ∧
      carelessAddon.illegalWalk.Sublist (IllegalNames.find carelessAddon) := by
  have unnamedLegal : ∀ names name, carelessAddon.HasEntry ([] :: names) (.file name) →
      Name.isLegalFile name = true := by
    have legalBelow : ∀ child ∈ carelessAddon.dirs, child.name = [] →
        child.Everywhere IllegalNames.Legal := by
      decide +kernel
    intro names name has
    obtain ⟨child, member, unnamed, below⟩ := hasEntry_cons_iff.mp has
    exact everywhere_entries_iff.mp (legalBelow child member unnamed) names (.file name) below
  exact ⟨unnamedLegal, (illegal_files_reported carelessAddon).2 unnamedLegal⟩

/-- An add-on with an illegal name in a directory of empty name. -/
def unnamedDirectory : Dir := ⟨"addon", [], [⟨"", [⟨"a b", none, none⟩], []⟩]⟩

/-- The walk lists the file as if it were in the root, where nothing is reported. -/
theorem unnamedDirectory_illegalWalk_not_reported :
    ¬ unnamedDirectory.illegalWalk.Sublist (IllegalNames.find unnamedDirectory) := by
  decide +kernel

end Dir

end AddonExchange
