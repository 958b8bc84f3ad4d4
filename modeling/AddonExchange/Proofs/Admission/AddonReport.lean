import AddonExchange.Admission.Report
import AddonExchange.Proofs.Admission.Collecting

namespace AddonExchange

section Modes

variable {passes : Dir → Bool} {collectInto : List Text → Dir → Bool × List Text}
  {find : Dir → List Text}

/-- Collecting into an empty list gives the answer of the check and what a search finds. -/
theorem ModesAgree.collectInto_nil (agree : ModesAgree passes collectInto find) (tree : Dir) :
    collectInto [] tree = (passes tree, find tree) :=
  Prod.ext (agree.answer [] tree) (agree.list [] tree)

end Modes

namespace Report

/-- One check of an add-on: whether it passes, and the message that it adds if not. -/
structure Check where
  passes : Bool
  message : Text

def failures (checks : List Check) : List Text :=
  (checks.filter fun check => !check.passes).map Check.message

private theorem failures_nil : failures [] = [] := rfl

private theorem failures_cons (check : Check) (checks : List Check) :
    failures (check :: checks) =
      (if check.passes then [] else [check.message]) ++ failures checks := by
  cases passes : check.passes <;> simp [failures, passes]

private theorem failures_eq_nil_iff {checks : List Check} :
    failures checks = [] ↔ ∀ check ∈ checks, check.passes = true := by
  simp [failures, List.filter_eq_nil_iff]

/-- The checks of an add-on in their order. Those of the tree stop at the first name that they
refuse and quote all that a search for such names finds. -/
def checks (name : Text) (tree : Dir) : List Check :=
  [⟨Name.isLegalAddon name, Text.ofString "Invalid add-on name: " ++ name.quoted⟩,
    ⟨IllegalNames.allLegal tree,
      Text.ofString "Add-on contains files or directories with illegal names: " ++
        (Text.ofString ", ").intercalate (IllegalNames.find tree)⟩,
    ⟨CaseClash.isFree tree,
      Text.ofString "Add-on contains names that differ only in case: " ++
        (Text.ofString ", ").intercalate (CaseClash.find tree)⟩]

/-- The report collects what the checks find, and a message for each of them that fails. -/
theorem ofAddon_eq (name : Text) (tree : Dir) :
    ofAddon name tree =
      ⟨name, IllegalNames.find tree, CaseClash.find tree, failures (checks name tree)⟩ := by
  simp only [ofAddon, checks, failures_cons, failures_nil, List.append_nil, List.append_assoc,
    IllegalNames.modesAgree.collectInto_nil, CaseClash.modesAgree.collectInto_nil]
  rfl

/-- A report tells of each of the three checks as if it were the only one. The add-on is valid
exactly if it passes all of them, the lists are those of the two searches whatever else is found
and are empty only if their checks pass, and there is one message for each check that fails, in
the order of the checks. -/
theorem ofAddon_runs_each_check (name : Text) (tree : Dir) :
    let report := ofAddon name tree
    (report.isValid = true ↔
        Name.isLegalAddon name = true ∧ IllegalNames.allLegal tree = true ∧
          CaseClash.isFree tree = true) ∧
      report.addonName = name ∧
      (report.illegalNames = IllegalNames.find tree ∧
        (IllegalNames.allLegal tree = true ↔ report.illegalNames = [])) ∧
      (report.caseClashes = CaseClash.find tree ∧
        (CaseClash.isFree tree = true ↔ report.caseClashes = [])) ∧
      report.errors = failures (checks name tree) := by
  intro report
  have collected : report = _ := ofAddon_eq name tree
  rw [collected]
  refine ⟨?_, rfl, ⟨rfl, IllegalNames.modesAgree.passes_iff tree⟩,
    ⟨rfl, CaseClash.modesAgree.passes_iff tree⟩, rfl⟩
  rw [isValid, List.isEmpty_iff, failures_eq_nil_iff]
  simp only [checks, List.forall_mem_cons, List.not_mem_nil, false_implies, implies_true, and_true]

end Report

end AddonExchange
