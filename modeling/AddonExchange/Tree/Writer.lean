import AddonExchange.Bytes.Escape
import AddonExchange.Tree.Copy
import AddonExchange.Value.Basic

/-! Writing a tree as a host value. What is absent or empty is left out, so every entry that
is written says something. A subdirectory is written with its name alone at first, and with what it
holds when its turn comes. -/

namespace AddonExchange

/-- A file as a mapping of its name and of those of contents and hash that it has. -/
def File.toValue (escaped : Bool) (file : File) : Value :=
  .map ((Text.ofString "name", .text file.name) ::
    (match file.contents with
      | none => []
      | some bytes =>
        [(Text.ofString "contents", .bytes (if escaped then Escape.encode bytes else bytes))]) ++
    (match file.hash with
      | none | some [] => []
      | some hash => [(Text.ofString "hash", .text hash)]))

namespace Value

/-- Changes the list that a mapping holds under a key. -/
def changeList (key : Text) (change : List Value → List Value) : Value → Value
  | map entries =>
    map (entries.map fun (name, held) =>
      match held with
      | list items => if name = key then (name, list (change items)) else (name, held)
      | _ => (name, held))
  | other => other

/-- Changes what a route reaches in a written tree. Each step of a route is a position among
subdirectories. -/
def changeAlong (change : Value → Value) : List Nat → Value → Value
  | [], value => change value
  | position :: rest, value =>
    value.changeList (Text.ofString "dir") fun items =>
      items.modify position (changeAlong change rest)

end Value

namespace Dir

/-- A list of children under its tag, or nothing where there are none. -/
def childEntry (tag : String) (children : List Value) : List (Text × Value) :=
  if children.isEmpty then [] else [(Text.ofString tag, .list children)]

/-- A directory of which only the name is written. -/
def nameValue (dir : Dir) : Value := .map [(Text.ofString "name", .text dir.name)]

/-- A directory as a mapping of its name, its files and what is written of its subdirectories. -/
def valueWith (escaped : Bool) (dir : Dir) (children : List Value) : Value :=
  .map ((Text.ofString "name", .text dir.name) ::
    childEntry "file" (dir.files.map (File.toValue escaped)) ++ childEntry "dir" children)

/-- A directory without what its subdirectories hold. -/
def outlineValue (escaped : Bool) (dir : Dir) : Value :=
  dir.valueWith escaped (dir.dirs.map nameValue)

/-- Writes what directories hold of which only the names are written. -/
def writeFrom (escaped : Bool) (written : Value) : List CopyTask → Value
  | [] => written
  | ⟨source, route⟩ :: waiting =>
    writeFrom escaped (written.changeAlong (fun _ => source.outlineValue escaped) route)
      (CopyTask.below route 0 source.dirs ++ waiting)
termination_by waiting => sizeAll (waiting.map CopyTask.source)
decreasing_by
  simp only [List.map_append, sizeAll_append, sizeAll_source_below, List.map_cons, sizeAll,
    size_eq]
  omega

/-- A tree as a mapping of its name, its files and its subdirectories. -/
def toValue (escaped : Bool) (dir : Dir) : Value := writeFrom escaped dir.nameValue [⟨dir, []⟩]

end Dir

end AddonExchange
