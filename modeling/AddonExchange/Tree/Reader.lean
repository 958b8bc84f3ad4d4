import AddonExchange.Bytes.Escape
import AddonExchange.Text.Utf8
import AddonExchange.Tree.Fault
import AddonExchange.Tree.Preorder
import AddonExchange.Tree.Walk
import AddonExchange.Value.Basic

/-! Reading a tree from a host value. Directories wait in a list and are read in preorder; a
directory is read by its files first, then by the names of its subdirectories, which
then wait in front of all others. The first fault met in this order is the one reported. -/

namespace AddonExchange

/-- How deep directories may nest below the root when nothing else is said. -/
def defaultMaxDepth : Int := 64

/-- Whether file contents are in escaped form, and how deep directories may nest. -/
structure ReadOptions where
  escaped : Bool := false
  maxDepth : Int := defaultMaxDepth

namespace TreeReader

def requireName (path : Text) (entry : Value) : Except TreeFault Text :=
  match entry with
  | .map entries =>
    match entries.lookup (Text.ofString "name") with
    | none => .error ⟨path, .missingName⟩
    | some (.text name) => .ok name
    | some other => .error ⟨path, .nameNotText other.kindName⟩
  | other => .error ⟨path, .notMapping other.kindName⟩

/-- The list of children under a tag, empty where the tag is absent. -/
def children (tag : String) (path : Text) (entry : Value) : Except TreeFault (List Value) :=
  match entry.get? (Text.ofString tag) with
  | none => .ok []
  | some (.list items) => .ok items
  | some other => .error ⟨path, .childrenNotList tag other.kindName⟩

/-- The contents of a file: bytes, or text of which every character is one byte. -/
def readContents (path : Text) (entry : Value) : Except TreeFault (Option Bytes) :=
  match entry.get? (Text.ofString "contents") with
  | none | some .null => .ok none
  | some (.bytes bytes) => .ok (some bytes)
  | some (.text text) =>
    match text.latin1? with
    | some bytes => .ok (some bytes)
    | none => .error ⟨path, .contentsNotLatin1⟩
  | some other => .error ⟨path, .contentsNotBytes other.kindName⟩

/-- The hash of a file, where an empty one counts as absent. -/
def readHash (path : Text) (entry : Value) : Except TreeFault (Option Text) :=
  match entry.get? (Text.ofString "hash") with
  | none | some .null => .ok none
  | some (.text hash) => .ok (if hash.isEmpty then none else some hash)
  | some other => .error ⟨path, .hashNotText other.kindName⟩

def readFile (escaped : Bool) (parent : Text) (entry : Value) : Except TreeFault File := do
  let name ← requireName parent entry
  let path := parent.joinPath name
  let contents ← readContents path entry
  let hash ← readHash path entry
  return ⟨name, if escaped then contents.map Escape.decode else contents, hash⟩

/-- A directory whose own name is known and whose contents are still to be read. -/
structure Waiting where
  entry : Value
  name : Text
  path : Text
  depth : Nat

/-- The subdirectories of a directory under the names read for them. -/
def below (parent : Waiting) (entries : List Value) (names : List Text) : List Waiting :=
  List.zipWith (fun entry name => ⟨entry, name, parent.path.joinPath name, parent.depth + 1⟩)
    entries names

noncomputable def load : List Waiting → Nat
  | [] => 0
  | dir :: rest => sizeOf dir.entry + load rest

private theorem load_append (first second : List Waiting) :
    load (first ++ second) = load first + load second := by
  induction first with
  | nil => simp [load]
  | cons dir rest ih => simp [load, ih, Nat.add_assoc]

private theorem load_below_lt (parent : Waiting) (entries : List Value) (names : List Text) :
    load (below parent entries names) < sizeOf entries := by
  induction entries generalizing names with
  | nil => simp [load, below]
  | cons entry rest ih =>
    cases names with
    | nil =>
      simp only [load, below, List.zipWith_nil_right, List.cons.sizeOf_spec]
      omega
    | cons name names =>
      have smaller := ih names
      simp only [load, below, List.zipWith_cons_cons, List.cons.sizeOf_spec] at *
      omega

private theorem sizeOf_children_le {tag : String} {path : Text} {entry : Value} {items : List Value}
    (found : children tag path entry = .ok items) : sizeOf items ≤ sizeOf entry := by
  unfold children at found
  split at found
  · cases found
    exact Value.sizeOf_pos entry
  · rename_i held
    cases found
    have smaller := Value.sizeOf_get?_lt held
    simp only [Value.list.sizeOf_spec] at smaller
    omega
  · cases found

/-- Reads the directories that wait, and all below them, as rows in preorder. -/
def readFrom (options : ReadOptions) : List Waiting → Except TreeFault (List Row)
  | [] => .ok []
  | dir :: waiting => do
    let files ← (← children "file" dir.path dir.entry).mapM (readFile options.escaped dir.path)
    match _found : children "dir" dir.path dir.entry with
    | .error fault => throw fault
    | .ok subdirs =>
      if !subdirs.isEmpty && options.maxDepth ≤ dir.depth then
        throw ⟨dir.path, .tooDeep options.maxDepth⟩
      let names ← subdirs.mapM (requireName dir.path)
      let rows ← readFrom options (below dir subdirs names ++ waiting)
      return ⟨dir.name, files, subdirs.length⟩ :: rows
termination_by waiting => load waiting
decreasing_by
  have shorter := sizeOf_children_le _found
  have fewer := load_below_lt dir subdirs names
  rw [load_append]
  simp only [load] at *
  omega

end TreeReader

def Dir.ofValue (options : ReadOptions) (value : Value) : Except TreeFault Dir := do
  let name ← TreeReader.requireName [] value
  let rows ← TreeReader.readFrom options [⟨value, name, [], 0⟩]
  return (Dir.ofPreorder rows).headD ⟨name, [], []⟩

end AddonExchange
