import AddonExchange.Yaml.Fault
import AddonExchange.Yaml.Tag
import AddonExchange.Yaml.Token

/-! The nodes of a document, made from its tokens. A node with an anchor is held once and stands
under its name wherever it is written or aliased, inside itself too. -/

namespace AddonExchange.Yaml

/-- A node with its tag, or the name of one that has an anchor. -/
inductive Node where
  | scalar (tag : Tag) (content : Text)
  | sequence (tag : Tag) (items : List Node)
  | mapping (tag : Tag) (entries : List (Node × Node))
  | named (anchor : List Char)

/-- The node that stands where nothing is written. -/
def Node.empty : Node := scalar .null []

/-- The root of a document, the nodes that have anchors, and a number that no row of different nodes
inside one another exceeds. -/
structure Graph where
  root : Node
  anchors : List (List Char × Node)
  size : Nat

/-- The tokens that are left, the anchors met, the nodes of those that are complete, and the
addresses of tag handles. -/
structure NodeReader where
  tokens : List Token
  met : List (List Char) := []
  anchors : List (List Char × Node) := []
  handles : List (List Char × List Char) := []

abbrev Build := StateT NodeReader (Except Fault)

/-- Where a node stands, which decides how it may be written. -/
inductive Position where
  | flow
  | block
  | blockValue
deriving DecidableEq

namespace Build

def refuse {α : Type} (problem : Problem) : Build α := throw (.refused problem)

def peek : Build Token := return (← get).tokens.headD .textEnd

def advance : Build Unit := modify fun s => { s with tokens := s.tokens.drop 1 }

/-- The address of a handle. The two usual handles have one unless a directive gives them
another. -/
def addressOf (handle : List Char) : Build (List Char) := do
  match (← get).handles.lookup handle with
  | some address => return address
  | none =>
    if handle = ['!'] then return ['!']
    else if handle = ['!', '!'] then return Tag.standard
    else refuse .unknownHandle

/-- The address that a tag token is short for. -/
def tagAddress (handle : Option (List Char)) (suffix : List Char) : Build (List Char) := do
  match handle with
  | none => return suffix
  | some name => return (← addressOf name) ++ suffix

/-- The anchor and the tag before a node, in either order, each of them optional. -/
def properties : Build (Option (List Char) × Option (List Char)) := do
  match ← peek with
  | .anchor name =>
    advance
    match ← peek with
    | .tag handle suffix =>
      advance
      return (some name, some (← tagAddress handle suffix))
    | _ => return (some name, none)
  | .tag handle suffix =>
    advance
    match ← peek with
    | .anchor name =>
      advance
      return (some name, some (← tagAddress handle suffix))
    | _ => return (none, some (← tagAddress handle suffix))
  | _ => return (none, none)

/-- The tag of a scalar. The address that is a mark alone asks for the tag of the plain form. -/
def scalarTag (address : Option (List Char)) (isPlain : Bool) (content : Text) : Tag :=
  match address with
  | none => if isPlain then Tag.ofPlain content else .text
  | some ['!'] => Tag.ofPlain content
  | some uri => Tag.ofUri uri

def collectionTag (address : Option (List Char)) (usual : Tag) : Tag :=
  match address with
  | none | some ['!'] => usual
  | some uri => Tag.ofUri uri

/-- Meets an anchor, which no earlier node may have. -/
def meet (name : List Char) : Build Unit := do
  let s ← get
  if s.met.contains name then refuse .repeatedAnchor
  set { s with met := name :: s.met }

/-- Holds the node of an anchor, which stands under its name from then on. -/
def hold (name : List Char) (made : Node) : Build Node := do
  modify fun s => { s with anchors := (name, made) :: s.anchors }
  return .named name

/-- The node that an alias stands for, which need not be complete. -/
def aliased (name : List Char) : Build Node := do
  if (← get).met.contains name then return .named name else refuse .unknownAlias

/-- Whether a token ends what stands inside a block mapping. -/
def endsBlock : Token → Bool
  | .key | .value | .blockEnd => true
  | _ => false

/-- Whether a token ends what stands inside a flow collection. -/
def endsFlow : Token → Bool
  | .flowEntry | .flowSequenceEnd | .flowMappingEnd => true
  | _ => false

/-- Goes over the comma between members of a flow collection. -/
def comma (isFirst : Bool) : Build Unit := do
  if !isFirst then
    match ← peek with
    | .flowEntry => advance
    | _ => refuse .unclosedCollection

mutual

def node : Nat → Position → Build Node
  | 0, _ => refuse .unfinished
  | fuel + 1, position => do
    match ← peek with
    | .alias name =>
      advance
      aliased name
    | _ =>
      match ← properties with
      | (some anchor, address) =>
        meet anchor
        hold anchor (← content fuel position address true)
      | (none, address) => content fuel position address address.isSome

/-- What stands after the properties of a node. Where there are some, nothing need follow. -/
def content : Nat → Position → Option (List Char) → Bool → Build Node
  | 0, _, _, _ => refuse .unfinished
  | fuel + 1, position, address, mayBeEmpty => do
    match ← peek with
    | .scalar content isPlain =>
      advance
      return .scalar (scalarTag address isPlain content) content
    | .flowSequenceStart =>
      advance
      return .sequence (collectionTag address .sequence) (← flowItems fuel true)
    | .flowMappingStart =>
      advance
      return .mapping (collectionTag address .mapping) (← flowEntries fuel true)
    | .blockEntry =>
      if position = .blockValue then
        return .sequence (collectionTag address .sequence) (← flushItems fuel)
      else nothing address mayBeEmpty
    | .blockSequenceStart =>
      if position = .flow then nothing address mayBeEmpty
      else
        advance
        return .sequence (collectionTag address .sequence) (← blockItems fuel)
    | .blockMappingStart =>
      if position = .flow then nothing address mayBeEmpty
      else
        advance
        return .mapping (collectionTag address .mapping) (← blockEntries fuel)
    | _ => nothing address mayBeEmpty

def nothing (address : Option (List Char)) (mayBeEmpty : Bool) : Build Node :=
  if mayBeEmpty then return .scalar (scalarTag address true []) []
  else refuse .unexpectedToken

def blockItems : Nat → Build (List Node)
  | 0 => refuse .unfinished
  | fuel + 1 => do
    match ← peek with
    | .blockEntry =>
      advance
      let item ← match ← peek with
        | .blockEntry | .blockEnd => pure Node.empty
        | _ => node fuel .block
      return item :: (← blockItems fuel)
    | .blockEnd =>
      advance
      return []
    | _ => refuse .unclosedCollection

/-- The items of a block sequence that is flush with the key before it. -/
def flushItems : Nat → Build (List Node)
  | 0 => refuse .unfinished
  | fuel + 1 => do
    match ← peek with
    | .blockEntry =>
      advance
      let item ← match ← peek with
        | .blockEntry | .key | .value | .blockEnd => pure Node.empty
        | _ => node fuel .block
      return item :: (← flushItems fuel)
    | _ => return []

def blockEntries : Nat → Build (List (Node × Node))
  | 0 => refuse .unfinished
  | fuel + 1 => do
    match ← peek with
    | .key =>
      advance
      let key ← if endsBlock (← peek) then pure Node.empty else node fuel .blockValue
      let value ← match ← peek with
        | .value => do
          advance
          if endsBlock (← peek) then pure Node.empty else node fuel .blockValue
        | _ => pure Node.empty
      return (key, value) :: (← blockEntries fuel)
    | .blockEnd =>
      advance
      return []
    | _ => refuse .unclosedCollection

/-- The key and the value of an entry of a flow collection, after the mark of the key. -/
def flowEntry : Nat → Build (Node × Node)
  | 0 => refuse .unfinished
  | fuel + 1 => do
    let key ← match ← peek with
      | .value => pure Node.empty
      | token => if endsFlow token then pure Node.empty else node fuel .flow
    let value ← match ← peek with
      | .value => do
        advance
        if endsFlow (← peek) then pure Node.empty else node fuel .flow
      | _ => pure Node.empty
    return (key, value)

/-- The items of a flow sequence. A key among them makes a mapping of one entry. -/
def flowItems : Nat → Bool → Build (List Node)
  | 0, _ => refuse .unfinished
  | fuel + 1, isFirst => do
    match ← peek with
    | .flowSequenceEnd =>
      advance
      return []
    | _ =>
      comma isFirst
      match ← peek with
      | .flowSequenceEnd =>
        advance
        return []
      | .key =>
        advance
        let item := Node.mapping .mapping [← flowEntry fuel]
        return item :: (← flowItems fuel false)
      | _ =>
        let item ← node fuel .flow
        return item :: (← flowItems fuel false)

/-- The entries of a flow mapping. A node that is no key has nothing for its value. -/
def flowEntries : Nat → Bool → Build (List (Node × Node))
  | 0, _ => refuse .unfinished
  | fuel + 1, isFirst => do
    match ← peek with
    | .flowMappingEnd =>
      advance
      return []
    | _ =>
      comma isFirst
      match ← peek with
      | .flowMappingEnd =>
        advance
        return []
      | .key =>
        advance
        let entry ← flowEntry fuel
        return entry :: (← flowEntries fuel false)
      | _ =>
        let key ← node fuel .flow
        return (key, Node.empty) :: (← flowEntries fuel false)

end

def directives (versioned : Bool) : Nat → Build Unit
  | 0 => refuse .unfinished
  | fuel + 1 => do
    match ← peek with
    | .directive d =>
      advance
      match d with
      | .version major _ =>
        if versioned then refuse .repeatedDirective
        if major ≠ 1 then refuse .unsupportedVersion
        directives true fuel
      | .handle name address =>
        let s ← get
        if (s.handles.lookup name).isSome then refuse .repeatedDirective
        set { s with handles := (name, address) :: s.handles }
        directives versioned fuel
      | .reserved => directives versioned fuel
    | _ => return

def skipEnds : Build Unit :=
  modify fun s => { s with tokens := s.tokens.dropWhile fun token => token matches .documentEnd }

/-- The root of the only document, if there is one. -/
def document : Build (Option Node) := do
  let fuel := 3 * (← get).tokens.length + 3
  match ← peek with
  | .textEnd => return none
  | .directive _ | .documentStart =>
    directives false fuel
    match ← peek with
    | .documentStart => advance
    | _ => refuse .unexpectedToken
    let root ← match ← peek with
      | .directive _ | .documentStart | .documentEnd | .textEnd => pure Node.empty
      | _ => node fuel .block
    skipEnds
    if !((← peek) matches .textEnd) then refuse .secondDocument
    return some root
  | _ =>
    let root ← node fuel .block
    skipEnds
    if !((← peek) matches .textEnd) then refuse .secondDocument
    return some root

end Build

/-- The nodes that tokens make, if there is a document. -/
def Graph.ofTokens? (tokens : List Token) : Except Fault (Option Graph) := do
  let (root, reader) ← Build.document.run { tokens := tokens }
  return root.map fun root => ⟨root, reader.anchors, tokens.length + 1⟩

end AddonExchange.Yaml
