import AddonExchange.Bytes.Basic
import AddonExchange.Text.Basic

/-! Directory trees. A directory keeps its files and its subdirectories in the order in which
they were added, and names may repeat; where they do, the first one is found. -/

namespace AddonExchange

/-- A file entry. Contents are absent from hash lists and removal lists; a hash that is
present stands for the contents. -/
structure File where
  name : Text
  contents : Option Bytes := none
  hash : Option Text := none
deriving DecidableEq

structure Dir where
  name : Text
  files : List File := []
  dirs : List Dir := []
deriving Inhabited

namespace Dir

mutual

/-- How many directories and files a tree holds, itself included. -/
def size : Dir → Nat
  | ⟨_, files, dirs⟩ => 1 + files.length + sizeAll dirs

def sizeAll : List Dir → Nat
  | [] => 0
  | dir :: rest => dir.size + sizeAll rest

end

theorem size_eq (dir : Dir) : dir.size = 1 + dir.files.length + sizeAll dir.dirs := by
  cases dir; rfl

theorem sizeAll_append (first second : List Dir) :
    sizeAll (first ++ second) = sizeAll first + sizeAll second := by
  induction first with
  | nil => simp [sizeAll]
  | cons dir rest ih => simp [sizeAll, ih, Nat.add_assoc]

theorem sizeAll_reverse (dirs : List Dir) : sizeAll dirs.reverse = sizeAll dirs := by
  induction dirs with
  | nil => rfl
  | cons dir rest ih =>
    rw [List.reverse_cons, sizeAll_append, ih, sizeAll, sizeAll, sizeAll]
    omega

def isEmpty (dir : Dir) : Bool := dir.files.isEmpty && dir.dirs.isEmpty

/-- The first file of a name. -/
def findFile? (dir : Dir) (name : Text) : Option File := dir.files.find? (·.name == name)

/-- The first subdirectory of a name. -/
def findDir? (dir : Dir) (name : Text) : Option Dir := dir.dirs.find? (·.name == name)

/-- The directory reached by the first subdirectory of each name in turn. -/
def descend? (dir : Dir) : List Text → Option Dir
  | [] => some dir
  | name :: rest => (dir.findDir? name).bind (·.descend? rest)

/-- The first file of a name in the directory that a path reaches. -/
def lookup? (dir : Dir) (path : List Text) (name : Text) : Option File :=
  (dir.descend? path).bind (·.findFile? name)

def addFile (dir : Dir) (file : File) : Dir := { dir with files := dir.files ++ [file] }

def addDir (dir child : Dir) : Dir := { dir with dirs := dir.dirs ++ [child] }

/-- Changes the first directory of a name in a list. -/
def changeFirst (name : Text) (change : Dir → Dir) : List Dir → List Dir
  | [] => []
  | dir :: rest =>
    if dir.name = name then change dir :: rest else dir :: changeFirst name change rest

/-- Changes the first subdirectory of a name and leaves everything else in place. -/
def changeDir (dir : Dir) (name : Text) (change : Dir → Dir) : Dir :=
  { dir with dirs := changeFirst name change dir.dirs }

/-- Changes the directory that a path reaches, if there is one. -/
def changeAt (dir : Dir) (change : Dir → Dir) : List Text → Dir
  | [] => change dir
  | name :: rest => dir.changeDir name fun child => child.changeAt change rest

end Dir

end AddonExchange
