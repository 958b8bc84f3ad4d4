import AddonExchange.Text.Utf8

namespace AddonExchange

/-- A path: how many slashes it starts with, at most two, and the names along it. -/
structure Path where
  slashes : Nat := 0
  names : List Text
deriving DecidableEq

namespace Path

def slash : CodePoint := CodePoint.ofChar '/'

/-- The name of the directory itself. -/
def here : Text := Text.ofString "."

/-- The name of the directory above. -/
def above : Text := Text.ofString ".."

def pieces (t : Text) : List Text := t.splitOn slash

/-- Reads a path. Empty pieces and those that name the directory itself are dropped; exactly two
slashes at the start are kept apart from one. -/
def ofText (t : Text) : Path :=
  let slashes := (t.takeWhile (· == slash)).length
  ⟨if slashes = 2 then 2 else min slashes 1,
    (pieces t).filter fun name => name != [] && name != here⟩

def toText (path : Path) : Text :=
  if path.slashes = 0 ∧ path.names = [] then here
  else List.replicate path.slashes slash ++ Text.join [slash] path.names

def append (path : Path) (names : List Text) : Path := ⟨path.slashes, path.names ++ names⟩

end Path

/-- An error in place of an answer: its number and what it is called. -/
structure FileSystem.Refusal where
  number : Nat
  wording : String
deriving DecidableEq

namespace FileSystem.Refusal

def notFound : Refusal := ⟨2, "No such file or directory"⟩

def noPermission : Refusal := ⟨13, "Permission denied"⟩

def nameTooLong : Refusal := ⟨36, "File name too long"⟩

end FileSystem.Refusal

/-- What a program is told of paths: whether a regular file lies there, and what it holds. -/
structure FileSystem where
  isFile : Path → Except FileSystem.Refusal Bool
  read : Path → Except FileSystem.Refusal Bytes

/-- The contents of the regular file at a path, if there is one. -/
def FileSystem.contents (files : FileSystem) (path : Path) :
    Except FileSystem.Refusal (Option Bytes) := do
  if ← files.isFile path then return some (← files.read path) else return none

/-- What can lie at a path. A directory can be closed to what lies below it, a file to what it
holds. -/
inductive Disk.Entry where
  | directory (isOpen : Bool := true)
  | file (contents : Bytes) (isOpen : Bool := true)

/-- What lies where, by the names from the root. Directories above an entry are there too, and open
unless they have entries of their own. -/
structure Disk where
  entries : List (List Text × Disk.Entry)

namespace Disk

open FileSystem

/-- The most bytes that a name can have. -/
def maxNameBytes : Nat := 255

/-- The fewest bytes that no path can have. -/
def maxPathBytes : Nat := 4096

def isDirectory (disk : Disk) (place : List Text) : Bool :=
  place.isEmpty || disk.entries.any fun (names, entry) =>
    match entry with
    | .directory _ => place.isPrefixOf names
    | .file .. => place.isPrefixOf names && place != names

def isClosed (disk : Disk) (place : List Text) : Bool :=
  match disk.entries.lookup place with
  | some (.directory isOpen) => !isOpen
  | _ => false

def isTooLong (name : Text) : Bool :=
  (Text.rawBytes? name).any fun raw => maxNameBytes < raw.length

/-- Follows names from a place, one directory after the other. -/
def follow (disk : Disk) (place : List Text) : List Text → Except Refusal (Option (List Text))
  | [] => .ok (some place)
  | name :: rest =>
    if !disk.isDirectory place then .ok none
    else if disk.isClosed place then .error .noPermission
    else if isTooLong name then .error .nameTooLong
    else follow disk (if name = Path.above then place.dropLast else place ++ [name]) rest

/-- The place that a path leads to. One without bytes, or with a zero byte among them, leads
nowhere, and so does a relative one where the working directory is gone. -/
def find (disk : Disk) (working : Option (List Text)) (path : Path) :
    Except Refusal (Option (List Text)) :=
  match path.toText.rawBytes? with
  | none => .ok none
  | some raw =>
    if raw.contains 0 then .ok none
    else if maxPathBytes ≤ raw.length then .error .nameTooLong
    else
      match if path.slashes = 0 then working else some [] with
      | none => .ok none
      | some start => disk.follow start path.names

def look (disk : Disk) (working : Option (List Text)) (path : Path) :
    Except Refusal (Option Entry) :=
  (disk.find working path).map fun found => found.bind fun place => disk.entries.lookup place

/-- A disk as seen from a working directory. -/
def files (disk : Disk) (working : Option (List Text)) : FileSystem where
  isFile path := (disk.look working path).map fun entry => entry matches some (.file ..)
  read path := (disk.look working path).bind fun entry =>
    match entry with
    | some (.file contents isOpen) => if isOpen then .ok contents else .error .noPermission
    | _ => .error .notFound

end Disk

end AddonExchange
