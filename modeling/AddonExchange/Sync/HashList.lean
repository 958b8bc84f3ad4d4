import AddonExchange.Sync.FileHash
import AddonExchange.Tree.Copy

/-! Hash lists: trees in which every file has its hash in place of its contents. A hash list
stands for its tree wherever two trees are compared. It is made directory by directory; the hashes
that no file carries can be computed beforehand, all of them concurrently, and are then found again
by the entries that they belong to. -/

namespace AddonExchange

/-- Which entry of a tree a file is: the route to its directory and its position there. It tells
files apart that are equal. -/
structure FileId where
  route : List Nat
  position : Nat
deriving DecidableEq

abbrev KnownHashes := List (FileId × Text)

namespace File

/-- Whether a file carries a hash, where an empty one counts as none. -/
def carriesHash (file : File) : Bool := file.hash.any fun hash => !hash.isEmpty

/-- A file as a hash list has it. The hash is the one that is known, or that of the file where none
or an empty one is. -/
def hashEntryBy (known : KnownHashes) (id : FileId) (file : File) : File :=
  let hash := match known.lookup id with
    | some (c :: rest) => c :: rest
    | _ => file.hashOf
  ⟨file.name, none, some hash⟩

end File

namespace Dir

/-- The files of the directory that a route reaches, each with the entry that it is. -/
def identified (route : List Nat) (dir : Dir) : List (FileId × File) :=
  dir.files.zipIdx.map fun placed => (⟨route, placed.2⟩, placed.1)

/-- Subdirectories of the directory that a route reaches, each with its own route. -/
def routed (route : List Nat) (dirs : List Dir) : List (List Nat × Dir) :=
  dirs.zipIdx.map fun placed => (route ++ [placed.2], placed.1)

private theorem map_snd_routed (route : List Nat) (dirs : List Dir) :
    (routed route dirs).map (·.2) = dirs := by
  rw [routed, List.map_map]
  exact List.zipIdx_map_fst 0 dirs

/-- The files below directories that wait to be visited, in the order of a walk. -/
def identifiedFrom : List (List Nat × Dir) → List (FileId × File)
  | [] => []
  | (route, dir) :: waiting =>
    dir.identified route ++ identifiedFrom (routed route dir.dirs ++ waiting)
termination_by waiting => sizeAll (waiting.map (·.2))
decreasing_by
  simp only [List.map_append, sizeAll_append, map_snd_routed, List.map_cons, sizeAll, size_eq]
  omega

/-- The hashes of the files of a tree that carry none, each computed by a task of its own. -/
def prehash (tree : Dir) : KnownHashes :=
  let pending := (identifiedFrom [([], tree)]).filter fun entry => !entry.2.carriesHash
  let tasks := pending.map fun entry =>
    Task.spawn fun _ => contentHash (entry.2.contents.getD [])
  (pending.map (·.1)).zip (tasks.map Task.get)

end Dir

/-- A directory of a tree that is still to be listed, with the routes to it and to its place in the
hash list. -/
structure ListTask extends CopyTask where
  origin : List Nat

/-- The tasks for the subdirectories of a directory, when a number of others are listed already. The
last one is done first. -/
def ListTask.below (task : ListTask) (held : Nat) : List ListTask :=
  (task.source.dirs.zipIdx.map fun placed =>
    ⟨⟨placed.1, task.route ++ [held + placed.2]⟩, task.origin ++ [placed.2]⟩).reverse

namespace Dir

/-- Adds the entries of a directory at the end, for the time being without what is below its
subdirectories. -/
def addListed (dir : Dir) (known : KnownHashes) (task : ListTask) : Dir :=
  ⟨dir.name,
    dir.files ++ (task.source.identified task.origin).map fun entry =>
      entry.2.hashEntryBy known entry.1,
    dir.dirs ++ task.source.dirs.map fun child => ⟨child.name, [], []⟩⟩

private theorem sizeAll_source_below_listTask (task : ListTask) (held : Nat) :
    sizeAll ((task.below held).map fun task => task.source) = sizeAll task.source.dirs := by
  rw [ListTask.below, List.map_reverse, sizeAll_reverse, List.map_map]
  exact congrArg sizeAll (List.zipIdx_map_fst 0 task.source.dirs)

/-- Does what is left of a hash list. -/
def listFrom (known : KnownHashes) (made : Dir) : List ListTask → Dir
  | [] => made
  | task :: waiting =>
    let held := (made.along? task.route).elim 0 (·.dirs.length)
    listFrom known (made.changeAlong (·.addListed known task) task.route)
      (task.below held ++ waiting)
termination_by waiting => sizeAll (waiting.map fun task => task.source)
decreasing_by
  simp only [List.map_append, sizeAll_append, sizeAll_source_below_listTask, List.map_cons, sizeAll,
    size_eq]
  omega

/-- The hash list of a tree. With more than one worker the hashes are computed beforehand. -/
def hashList (workers : Option Int) (dir : Dir) : Dir :=
  let known := if workers.any (1 < ·) then dir.prehash else []
  listFrom known ⟨dir.name, [], []⟩ [⟨⟨dir, []⟩, []⟩]

end Dir

end AddonExchange
