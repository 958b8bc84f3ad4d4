import AddonExchange.Sync.FileHash

/-! Whether one tree holds every file of another. A directory that one side lacks is compared
as an empty one, so a directory without files anywhere below it makes no difference. -/

namespace AddonExchange.Dir

/-- The first subdirectory of a name, or an empty one where there is none. -/
def counterpart (dir : Dir) (name : Text) : Dir := (dir.findDir? name).getD ⟨name, [], []⟩

def holdsFiles (dir : Dir) (files : List File) : Bool :=
  let keys := dir.fileKeys
  files.all fun file => keys.contains file.key

/-- Subdirectories with their counterparts, the last one first. -/
def paired (source : Dir) (dirs : List Dir) : List (Dir × Dir) :=
  (dirs.map fun dir => (source.counterpart dir.name, dir)).reverse

private theorem sizeAll_snd_paired (source : Dir) (dirs : List Dir) :
    sizeAll ((source.paired dirs).map (·.2)) = sizeAll dirs := by
  rw [paired, List.map_reverse, sizeAll_reverse, List.map_map]
  exact congrArg sizeAll (List.map_id' dirs)

/-- Whether in every pair that waits the first tree holds the files of the second one. Pairs of
subdirectories are compared before those that waited already. -/
def containsFrom : List (Dir × Dir) → Bool
  | [] => true
  | (source, target) :: waiting =>
    source.holdsFiles target.files && containsFrom (source.paired target.dirs ++ waiting)
termination_by waiting => sizeAll (waiting.map (·.2))
decreasing_by
  simp only [List.map_append, sizeAll_append, sizeAll_snd_paired, List.map_cons, sizeAll, size_eq]
  omega

/-- Whether every file of the second tree is at the same place in the first one. -/
def contains (source target : Dir) : Bool := containsFrom [(source, target)]

end AddonExchange.Dir
