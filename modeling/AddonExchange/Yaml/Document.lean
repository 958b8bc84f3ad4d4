import AddonExchange.Bytes.Base64
import AddonExchange.Settings.Document
import AddonExchange.Yaml.Lexer
import AddonExchange.Yaml.Node
import AddonExchange.Yaml.Number

/-! The document of a YAML text. Entries of mappings that are merged into another come before its
own; of several entries with a key the last counts. -/

namespace AddonExchange.Yaml

def refuse {α : Type} (problem : Problem) : Except Fault α := .error (.refused problem)

def truthOf (content : Text) : Except Fault Bool :=
  let word := content.map CodePoint.foldAscii
  let isOneOf (words : List String) := words.any fun w => Text.ofString w == word
  if isOneOf ["yes", "true", "on"] then .ok true
  else if isOneOf ["no", "false", "off"] then .ok false
  else .error (.badScalar (Text.quoted word))

def bytesOf (content : Text) : Except Fault Bytes :=
  match content.toChars?.bind fun cs =>
    if cs.all fun c => c.toNat < 0x80 then Base64.decode? cs else none with
  | some bytes => .ok bytes
  | none => refuse .malformedBase64

def momentOf (content : Text) : Except Fault Timestamp :=
  match content.toChars?.bind Timestamp.read? with
  | none => .error (.badScalar content.quoted)
  | some stamp =>
    match stamp.complaint? with
    | some complaint => .error (.badScalar (Text.ofString complaint))
    | none => .ok stamp

namespace Node

def anchor? : Node → Option (List Char)
  | named anchor => some anchor
  | _ => none

end Node

namespace Graph

variable (graph : Graph)

/-- The node that stands under a name, or the node itself. -/
def resolve (node : Node) : Node :=
  match node.anchor? with
  | some anchor => (graph.anchors.lookup anchor).getD Node.empty
  | none => node

def tagOf (node : Node) : Tag :=
  match graph.resolve node with
  | .scalar tag _ | .sequence tag _ | .mapping tag _ => tag
  | .named _ => .unknown

/-- The text of a scalar; that of a mapping is the text of its first default entry. The count is
used up only where there is no end to default entries. -/
def textAt : Nat → Node → Except Fault Text
  | 0, _ => .error .endless
  | count + 1, node =>
    match graph.resolve node with
    | .scalar _ content => .ok content
    | .mapping _ entries =>
      match entries.find? fun entry => graph.tagOf entry.1 = .default with
      | some (_, value) => textAt count value
      | none => refuse .wrongNodeKind
    | _ => refuse .wrongNodeKind

def textOf (node : Node) : Except Fault Text := graph.textAt graph.size node

/-- The entries of a mapping, the merged ones first. Of mappings that are merged together the later
ones come first. A mapping that is merged into itself brings in what it has without merging. -/
def entriesAt : Nat → List (List Char) → Node → Except Fault (List (Node × Node))
  | 0, _, _ => refuse .unfinished
  | count + 1, within, node => do
    match graph.resolve node with
    | .mapping _ entries =>
      let (merges, own) := entries.partition fun entry => graph.tagOf entry.1 = .merge
      if node.anchor?.any within.contains then return own
      let inside := node.anchor?.toList ++ within
      let merged ← merges.mapM fun (_, value) =>
        match graph.resolve value with
        | .sequence _ items =>
          return (← items.mapM (entriesAt count inside)).reverse.flatten
        | _ => entriesAt count inside value
      return merged.flatten ++ own
    | _ => refuse .wrongNodeKind

def isKey : Document → Bool
  | .list _ | .set _ | .map _ | .enclosing => false
  | _ => true

/-- The document of a node. Inside a collection its name stands for no further copy of it. -/
def documentAt : Nat → List (List Char) → Node → Except Fault Document
  | 0, _, _ => refuse .unfinished
  | count + 1, within, node => do
    if node.anchor?.any within.contains then return .enclosing
    let inside := node.anchor?.toList ++ within
    -- A default key is a text like any other here.
    let keyOf (key : Node) : Except Fault Document := do
      let made ← if graph.tagOf key = .default then return .text (← graph.textOf key)
        else documentAt count inside key
      if isKey made then return made else refuse .unusableKey
    let fields : Except Fault (List (Document × Document)) := do
      let entries ← graph.entriesAt graph.size [] node
      let made ← entries.mapM fun (key, value) => do
        return (← keyOf key, ← documentAt count inside value)
      return Document.distinct made
    match graph.tagOf node with
    | .null =>
      let _ ← graph.textOf node
      return .null
    | .bool => return .bool (← truthOf (← graph.textOf node))
    | .int => return .int (← (Number.readInt (← graph.textOf node)).mapError Fault.badScalar)
    | .float => return .real (← (Number.readFloat (← graph.textOf node)).mapError Fault.badScalar)
    | .binary => return .bytes (← bytesOf (← graph.textOf node))
    | .timestamp => return .moment (← momentOf (← graph.textOf node))
    | .text => return .text (← graph.textOf node)
    | .sequence =>
      match graph.resolve node with
      | .sequence _ items => return .list (← items.mapM (documentAt count inside))
      | _ => refuse .wrongNodeKind
    | .mapping => return .map (← fields)
    | .set => return .set ((← fields).map (·.1))
    | .pairs =>
      match graph.resolve node with
      | .sequence _ items =>
        return .list (← items.mapM fun item =>
          match graph.resolve item with
          | .mapping _ [(key, value)] =>
            return .pair (← documentAt count inside key) (← documentAt count inside value)
          | _ => refuse .wrongNodeKind)
      | _ => refuse .wrongNodeKind
    | .merge | .default | .unknown => refuse .unknownTag

end Graph

/-- The document of a text; a text without one is null. -/
def read (chars : List Char) : Except Fault Document := do
  match ← Graph.ofTokens? (← tokens chars) with
  | none => return .null
  | some graph => graph.documentAt graph.size [] graph.root

end AddonExchange.Yaml
