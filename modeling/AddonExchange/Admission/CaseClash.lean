import AddonExchange.Admission.Findings
import AddonExchange.Text.Utf8
import AddonExchange.Tree.Basic

/-! Names in one directory that differ in ASCII case at most. Files and subdirectories of a
directory share one namespace, which is filled in the order of the visit: the files, then each
subdirectory followed by everything below it. The first clash on a name reports both paths, a
later one only its own. -/

namespace AddonExchange.CaseClash

open Findings (inside)

/-- What a namespace knows of a key: the path that came first, or that it is reported. -/
inductive Sighting where
  | first (path : Text)
  | reported

/-- The sightings of the names of one directory. -/
abbrev Namespace := List (Bytes × Sighting)

/-- The key under which names clash: the bytes of a name with ASCII letters in lower case. -/
def key (name : Text) : Bytes := name.wideBytes.map Bytes.lowerByte

/-- Records a name; gives the namespace after it and the paths that are to be reported. -/
def note (seen : Namespace) (path name : Text) : Namespace × List Text :=
  match seen.lookup (key name) with
  | none => ((key name, .first (path ++ name)) :: seen, [])
  | some (.first earlier) => ((key name, .reported) :: seen, [earlier, path ++ name])
  | some .reported => (seen, [path ++ name])

def noteFiles (path : Text) (files : List File) (seen : Namespace) (findings : Findings) :
    Namespace × Findings :=
  files.foldl (fun (seen, findings) file =>
    let (seen, paths) := note seen path file.name
    (seen, findings.add paths)) (seen, findings)

/-- A directory whose remaining subdirectories are still to be recorded in its namespace. -/
structure Open where
  seen : Namespace
  path : Text
  dirs : List Dir

def load : List Open → Nat
  | [] => 0
  | dir :: outer => 1 + 2 * Dir.sizeAll dir.dirs + load outer

/-- Visits what is left, innermost directory first, and reports every clash. -/
def collect : List Open → Findings → Findings
  | [], findings => findings
  | ⟨_, _, []⟩ :: outer, findings => collect outer findings
  | ⟨seen, path, dir :: dirs⟩ :: outer, findings =>
    let (seen, paths) := note seen path dir.name
    let here := inside path dir.name
    let (within, findings) := noteFiles here dir.files [] (findings.add paths)
    collect (⟨within, here, dir.dirs⟩ :: ⟨seen, path, dirs⟩ :: outer) findings
termination_by stack => load stack
decreasing_by
  · simp only [load]
    omega
  · simp only [load, Dir.sizeAll, Dir.size_eq]
    omega

/-- Whether the files of a directory clash with nothing seen; the namespace after them if so. -/
def freshFiles? (path : Text) : List File → Namespace → Option Namespace
  | [], seen => some seen
  | file :: files, seen =>
    match note seen path file.name with
    | (seen, []) => freshFiles? path files seen
    | _ => none

/-- Visits what is left until it meets a clash. -/
def noneAmong : List Open → Bool
  | [] => true
  | ⟨_, _, []⟩ :: outer => noneAmong outer
  | ⟨seen, path, dir :: dirs⟩ :: outer =>
    match note seen path dir.name with
    | (seen, []) =>
      match freshFiles? (inside path dir.name) dir.files [] with
      | some within =>
        noneAmong (⟨within, inside path dir.name, dir.dirs⟩ :: ⟨seen, path, dirs⟩ :: outer)
      | none => false
    | _ => false
termination_by stack => load stack
decreasing_by
  · simp only [load]
    omega
  · simp only [load, Dir.sizeAll, Dir.size_eq]
    omega

/-- Adds the paths of all clashes to a list; tells whether there were none. -/
def collectInto (list : List Text) (tree : Dir) : Bool × List Text :=
  let (seen, findings) := noteFiles [] tree.files [] ⟨0, list⟩
  let findings := collect [⟨seen, [], tree.dirs⟩] findings
  (findings.count == 0, findings.list)

def find (tree : Dir) : List Text := (collectInto [] tree).2

/-- Whether no two names of a directory clash anywhere, decided at the first clash. -/
def isFree (tree : Dir) : Bool :=
  match freshFiles? [] tree.files [] with
  | some seen => noneAmong [⟨seen, [], tree.dirs⟩]
  | none => false

end AddonExchange.CaseClash
