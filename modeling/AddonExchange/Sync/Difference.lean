import AddonExchange.Sync.Containment
import AddonExchange.Tree.Copy

/-! The part of a tree that another one lacks. Pairs of directories are compared one after the
other, and each comparison leaves a frame behind that knows the slot its result is for. The frames
are settled afterwards, from the last to the first, and directories in which nothing is missing go
nowhere. -/

namespace AddonExchange

/-- A file as it is listed in a difference: with contents and hash, or by its name alone. -/
def File.listed (withContents : Bool) (file : File) : File :=
  if withContents then ⟨file.name, file.contents, some file.hashOf⟩ else ⟨file.name, none, none⟩

/-- The files of a directory that are not among those of the other. -/
def Dir.missingFiles (withContents : Bool) (source target : Dir) : List File :=
  let keys := source.fileKeys
  (target.files.filter fun file => !keys.contains file.key).map (File.listed withContents)

/-- Two directories that are still to be compared, with the place for what is missing: a slot of
the frame at a position, or none for the root. -/
structure Comparison where
  source : Dir
  target : Dir
  parent : Option Nat
  slot : Nat

/-- The comparisons of the subdirectories of a directory whose frame is at a position. The last one
is made first. -/
def Comparison.below (pair : Comparison) (position : Nat) : List Comparison :=
  (pair.target.dirs.zipIdx.map fun placed =>
    ⟨pair.source.counterpart placed.1.name, placed.1, some position, placed.2⟩).reverse

/-- What a comparison leaves behind: a directory with the files that are missing, the place it is
for, and a slot for each subdirectory that it may get. -/
structure Frame where
  node : Dir
  parent : Option Nat
  slot : Nat
  children : List (Option Dir)

namespace Frame

/-- The frame of a comparison, with all slots vacant. -/
def ofComparison (withContents : Bool) (pair : Comparison) : Frame where
  node := ⟨pair.target.name, Dir.missingFiles withContents pair.source pair.target, []⟩
  parent := pair.parent
  slot := pair.slot
  children := List.replicate pair.target.dirs.length none

def fill (slot : Nat) (part : Dir) (frame : Frame) : Frame :=
  { frame with children := frame.children.set slot (some part) }

/-- Takes what is in the slots for the subdirectories. -/
def settled (frame : Frame) : Frame :=
  { frame with node := { frame.node with dirs := frame.children.filterMap id } }

/-- Puts a directory into the place it is for, unless it is empty. -/
def deliver (parent : Option Nat) (slot : Nat) (part : Dir) (frames : List Frame) : List Frame :=
  match parent with
  | none => frames
  | some position => if part.isEmpty then frames else frames.modify position (fill slot part)

/-- Settles the frame at a position and delivers its directory. -/
def settleAt (position : Nat) (frames : List Frame) : List Frame :=
  match frames[position]? with
  | none => frames
  | some frame =>
    deliver frame.parent frame.slot frame.settled.node (frames.set position frame.settled)

def settleAll (frames : List Frame) : List Frame :=
  (List.range frames.length).foldr settleAt frames

end Frame

namespace Dir

private theorem sizeAll_target_below (pair : Comparison) (position : Nat) :
    sizeAll ((pair.below position).map Comparison.target) = sizeAll pair.target.dirs := by
  rw [Comparison.below, List.map_reverse, sizeAll_reverse, List.map_map]
  exact congrArg sizeAll (List.zipIdx_map_fst 0 pair.target.dirs)

/-- Makes the comparisons that wait, and all below them. The first frame gets the position that is
given. -/
def framesFrom (withContents : Bool) (position : Nat) : List Comparison → List Frame
  | [] => []
  | pair :: waiting =>
    Frame.ofComparison withContents pair ::
      framesFrom withContents (position + 1) (pair.below position ++ waiting)
termination_by waiting => sizeAll (waiting.map Comparison.target)
decreasing_by
  simp only [List.map_append, sizeAll_append, sizeAll_target_below, List.map_cons, sizeAll, size_eq]
  omega

/-- The files of the second tree that are not at the same place in the first, in the directories
that hold them and in no others but the root. -/
def difference (withContents : Bool) (source target : Dir) : Dir :=
  let frames := framesFrom withContents 0 [⟨source, target, none, 0⟩]
  (Frame.settleAll frames).head?.elim ⟨target.name, [], []⟩ Frame.node

/-- The difference, and whether there is anything in it. -/
def changes (withContents : Bool) (source target : Dir) : Dir × Bool :=
  let part := difference withContents source target
  (part, !part.isEmpty)

end Dir

end AddonExchange
