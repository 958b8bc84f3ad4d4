import AddonExchange.Admission.Findings
import AddonExchange.Name
import AddonExchange.Tree.Basic

/-! The names in a tree that are not legal. A directory is checked when it is reached and its
subtree follows before the next of its siblings, whether its name is legal or not. The name of
the root is not checked. -/

namespace AddonExchange.IllegalNames

open Findings (inside)

def noteFiles (path : Text) (files : List File) (findings : Findings) : Findings :=
  files.foldl (fun done file =>
    if Name.isLegalFile file.name then done else done.add [path ++ file.name]) findings

/-- Subdirectories together with the path text of the directory that holds them. -/
def held (path : Text) (dirs : List Dir) : List (Text × Dir) := dirs.map fun dir => (path, dir)

private theorem map_snd_held (path : Text) (dirs : List Dir) :
    (held path dirs).map (·.2) = dirs := by
  simp [held, Function.comp_def]

/-- Visits the directories that wait and reports every illegal name. -/
def collect : List (Text × Dir) → Findings → Findings
  | [], findings => findings
  | (path, dir) :: waiting, findings =>
    let here := inside path dir.name
    let named := if Name.isLegalFile dir.name then findings else findings.add [here]
    collect (held here dir.dirs ++ waiting) (noteFiles here dir.files named)
termination_by waiting => Dir.sizeAll (waiting.map (·.2))
decreasing_by
  simp only [List.map_append, Dir.sizeAll_append, map_snd_held, List.map_cons, Dir.sizeAll,
    Dir.size_eq]
  omega

/-- Visits the directories that wait until it meets an illegal name. -/
def noneAmong : List (Text × Dir) → Bool
  | [] => true
  | (path, dir) :: waiting =>
    if Name.isLegalFile dir.name && dir.files.all (fun file => Name.isLegalFile file.name) then
      noneAmong (held (inside path dir.name) dir.dirs ++ waiting)
    else false
termination_by waiting => Dir.sizeAll (waiting.map (·.2))
decreasing_by
  simp only [List.map_append, Dir.sizeAll_append, map_snd_held, List.map_cons, Dir.sizeAll,
    Dir.size_eq]
  omega

/-- Adds the paths of all illegal names to a list; tells whether there were none. -/
def collectInto (list : List Text) (tree : Dir) : Bool × List Text :=
  let findings := collect (held [] tree.dirs) (noteFiles [] tree.files ⟨0, list⟩)
  (findings.count == 0, findings.list)

def find (tree : Dir) : List Text := (collectInto [] tree).2

/-- Whether every name below the root is legal, decided at the first that is not. -/
def allLegal (tree : Dir) : Bool :=
  tree.files.all (fun file => Name.isLegalFile file.name) && noneAmong (held [] tree.dirs)

end AddonExchange.IllegalNames
