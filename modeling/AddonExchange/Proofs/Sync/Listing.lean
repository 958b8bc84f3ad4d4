import AddonExchange.Proofs.Sync.Containment

namespace AddonExchange.Dir

variable {α : Type} {dir : Dir} {path : List Text}

/-- What is listed in the directory that descending along a path finds, nothing where it finds
none. -/
def listedAt (listed : Dir → List α) (tree : Dir) (path : List Text) : List α :=
  (tree.descend? path).elim [] listed

abbrev filesAt (tree : Dir) (path : List Text) : List File := tree.listedAt Dir.files path

def dirNames (dir : Dir) : List Text := dir.dirs.map Dir.name

abbrev dirNamesAt (tree : Dir) (path : List Text) : List Text := tree.listedAt dirNames path

theorem listedAt_cons (listed : Dir → List α) (tree : Dir) (first : Text) (rest : List Text) :
    tree.listedAt listed (first :: rest) =
      (tree.findDir? first).elim [] fun child => child.listedAt listed rest := by
  rw [listedAt, descend?]
  cases tree.findDir? first with
  | none => rfl
  | some child => rfl

private theorem listedAt_empty {listed : Dir → List α} (name : Text)
    (empty : listed ⟨name, [], []⟩ = [])
    (path : List Text) : listedAt listed ⟨name, [], []⟩ path = [] := by
  cases path with
  | nil => exact empty
  | cons first rest => rfl

/-- An empty directory lists as much as one that is not there. -/
theorem listedAt_counterpart {listed : Dir → List α} (empty : ∀ name, listed ⟨name, [], []⟩ = [])
    (dir : Dir) (first : Text) (rest : List Text) :
    (dir.counterpart first).listedAt listed rest = dir.listedAt listed (first :: rest) := by
  rw [listedAt_cons]
  cases found : dir.findDir? first with
  | none => exact counterpart_of_absent found ▸ listedAt_empty first (empty first) rest
  | some child => rw [counterpart_of_found found, Option.elim_some]

theorem filesAt_counterpart (dir : Dir) (first : Text) (rest : List Text) :
    (dir.counterpart first).filesAt rest = dir.filesAt (first :: rest) :=
  listedAt_counterpart (fun _ => rfl) dir first rest

end AddonExchange.Dir
