import AddonExchange.Admission.CaseClash
import AddonExchange.Admission.IllegalNames
import AddonExchange.Text.Quoted

namespace AddonExchange

/-- The outcome of the checks. -/
structure Report where
  addonName : Text
  illegalNames : List Text
  caseClashes : List Text
  errors : List Text

namespace Report

/-- An add-on may be stored if nothing is wrong with it. -/
def isValid (report : Report) : Bool := report.errors.isEmpty

def listing (paths : List Text) : Text := Text.join (Text.ofString ", ") paths

def ofAddon (name : Text) (tree : Dir) : Report :=
  let (namesLegal, illegalNames) := IllegalNames.collectInto [] tree
  let (clashFree, caseClashes) := CaseClash.collectInto [] tree
  let nameErrors := if Name.isLegalAddon name then [] else
    [Text.ofString "Invalid add-on name: " ++ name.quoted]
  let illegalErrors := if namesLegal then [] else
    [Text.ofString "Add-on contains files or directories with illegal names: " ++
      listing illegalNames]
  let clashErrors := if clashFree then [] else
    [Text.ofString "Add-on contains names that differ only in case: " ++ listing caseClashes]
  ⟨name, illegalNames, caseClashes, nameErrors ++ illegalErrors ++ clashErrors⟩

end Report

end AddonExchange
