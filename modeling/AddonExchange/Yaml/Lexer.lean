import AddonExchange.Yaml.Property
import AddonExchange.Yaml.Scalar
import AddonExchange.Yaml.Token

/-! The tokens of a whole text. Indentation opens and closes block collections, and a token that
turns out to be a key is marked so when the colon after it is met: until then its place
is remembered, one for each level of flow collections. -/

namespace AddonExchange.Yaml

/-- The place of a token that a colon may yet make a key. -/
structure Candidate where
  position : Nat
  required : Bool
  glyph : Glyph

/-- What reading tokens depends on besides the glyphs that are left. -/
structure Lexer where
  source : List Glyph
  tokens : Array Token := #[]
  indent : Int := -1
  outer : List Int := []
  flowLevel : Nat := 0
  keyAllowed : Bool := true
  candidates : List (Nat × Candidate) := []

abbrev Lex := StateT Lexer (Except Fault)

namespace Lex

def refuse {α : Type} (problem : Problem) : Lex α := throw (.refused problem)

def scan {α : Type} (read : Scan α) : Lex α := do
  let (result, source) ← read.run (← get).source
  modify ({ · with source := source })
  return result

def emit (token : Token) : Lex Unit := modify fun s => { s with tokens := s.tokens.push token }

/-- Puts a token before those that follow a position. -/
def emitAt (position : Nat) (token : Token) : Lex Unit :=
  modify fun s => { s with tokens := s.tokens.insertIdxIfInBounds position token }

def allowKey (allowed : Bool) : Lex Unit := modify ({ · with keyAllowed := allowed })

def inFlow : Lex Bool := return 0 < (← get).flowLevel

/-- Opens a block collection if a column lies deeper than the one that is open. -/
def openBlock (column : Nat) : Lex Bool := do
  let s ← get
  if s.indent < column then
    set { s with indent := column, outer := s.indent :: s.outer }
    return true
  else return false

/-- Splits off the indentations of the collections that a column closes. -/
def closed (column : Int) : Int → List Int → Nat × Int × List Int
  | indent, [] => (0, indent, [])
  | indent, next :: outer =>
    if column < indent then
      let (count, indent, outer) := closed column next outer
      (count + 1, indent, outer)
    else (0, indent, next :: outer)

def closeBlocks (column : Int) : Lex Unit := do
  if !(← inFlow) then
    let s ← get
    let (count, indent, outer) := closed column s.indent s.outer
    set { s with
      indent := indent, outer := outer, tokens := s.tokens ++ Array.replicate count Token.blockEnd }

def dropCandidate : Lex Unit := do
  let s ← get
  match s.candidates.lookup s.flowLevel with
  | none => return
  | some candidate =>
    if candidate.required then refuse .keyWithoutValue
    set { s with candidates := s.candidates.filter fun entry => entry.1 != s.flowLevel }

def saveCandidate : Lex Unit := do
  if (← get).keyAllowed then
    dropCandidate
    let s ← get
    let glyph ← scan Scan.here
    let required := s.flowLevel == 0 && s.indent == glyph.column
    set { s with candidates := (s.flowLevel, ⟨s.tokens.size, required, glyph⟩) :: s.candidates }

/-- A key is not longer than this and does not extend over a line. -/
def maxKeyLength : Nat := 1024

/-- Forgets the places that are too far back. -/
def dropStaleCandidates : Lex Unit := do
  let s ← get
  let here ← scan Scan.here
  let (stale, fresh) := s.candidates.partition fun (_, candidate) =>
    candidate.glyph.line != here.line || maxKeyLength < here.index - candidate.glyph.index
  if stale.any fun (_, candidate) => candidate.required then refuse .keyWithoutValue
  set { s with candidates := fresh }

/-- Goes to the next token. A line end outside flow collections makes a key possible. -/
def skipToToken : Lex Unit := do
  let ended ← scan (Scan.untilDone (fun ended => do
    Scan.skipSpacesAndComment
    if (← Scan.lineBreak).isEmpty then return .inr ended else return .inl true) false)
  if ended && !(← inFlow) then allowKey true

/-- Starts over for what belongs to no block collection. -/
def leaveBlocks : Lex Unit := do
  closeBlocks (-1)
  dropCandidate
  allowKey false

def flowStart (token : Token) : Lex Unit := do
  saveCandidate
  modify fun s => { s with flowLevel := s.flowLevel + 1 }
  allowKey true
  scan (Scan.skip 1)
  emit token

def flowEnd (token : Token) : Lex Unit := do
  dropCandidate
  if !(← inFlow) then refuse .unexpectedToken
  modify fun s => { s with flowLevel := s.flowLevel - 1 }
  allowKey false
  scan (Scan.skip 1)
  emit token

def flowEntry : Lex Unit := do
  allowKey true
  dropCandidate
  scan (Scan.skip 1)
  emit .flowEntry

def blockEntry : Lex Unit := do
  if !(← inFlow) then
    if !(← get).keyAllowed then refuse .entryNotAllowed
    if ← openBlock (← scan Scan.column) then emit .blockSequenceStart
  allowKey true
  dropCandidate
  scan (Scan.skip 1)
  emit .blockEntry

/-- Reads the question mark of an explicit key. -/
def explicitKey : Lex Unit := do
  let flow ← inFlow
  if !flow then
    if !(← get).keyAllowed then refuse .keyNotAllowed
    if ← openBlock (← scan Scan.column) then emit .blockMappingStart
  allowKey (!flow)
  dropCandidate
  scan (Scan.skip 1)
  emit .key

/-- Reads the colon before a value, which makes a key of the token remembered before it. -/
def value : Lex Unit := do
  let flow ← inFlow
  let s ← get
  match s.candidates.lookup s.flowLevel with
  | some candidate =>
    set { s with candidates := s.candidates.filter fun entry => entry.1 != s.flowLevel }
    emitAt candidate.position .key
    if !flow then
      if ← openBlock candidate.glyph.column then emitAt candidate.position .blockMappingStart
    allowKey false
  | none =>
    if !flow then
      if !s.keyAllowed then refuse .valueNotAllowed
      if ← openBlock (← scan Scan.column) then emit .blockMappingStart
    allowKey (!flow)
    dropCandidate
  scan (Scan.skip 1)
  emit .value

/-- Reads a token that may be a key. -/
def keyable (read : Scan Token) : Lex Unit := do
  saveCandidate
  allowKey false
  emit (← scan read)

def plainScalar : Lex Unit := do
  saveCandidate
  let s ← get
  let (text, ended) ← scan (Scan.plain (s.indent + 1) (0 < s.flowLevel))
  allowKey ended
  emit (.scalar text true)

def blockScalar : Lex Unit := do
  allowKey true
  dropCandidate
  emit (.scalar (← scan (Scan.block (← get).indent)) false)

def separator (token : Token) : Lex Unit := do
  leaveBlocks
  scan (Scan.skip 3)
  emit token

/-- Whether a plain scalar starts with a character that another one follows. -/
def startsPlain (inFlow : Bool) (c next : Char) : Bool :=
  !(isSeparator c || "-?:,[]\x7b\x7d#&*!|>'\x22%@\x60".toList.contains c) ||
    (!isSeparator next && (c == '-' || (!inFlow && (c == '?' || c == ':'))))

/-- Reads the next token; tells whether the text goes on after it. -/
def token : Lex Bool := do
  skipToToken
  dropStaleCandidates
  let here ← scan Scan.here
  closeBlocks here.column
  let flow ← inFlow
  let c := here.char
  let next ← scan (Scan.peekAt 1)
  let atSeparator ← scan Scan.atDocumentSeparator
  if c == endMark then
    leaveBlocks
    emit .textEnd
    return false
  if c == '%' && here.column == 0 then
    leaveBlocks
    emit (← scan Scan.directive)
  else if atSeparator && here.column == 0 then
    separator (if c == '-' then .documentStart else .documentEnd)
  else if c == '[' then flowStart .flowSequenceStart
  else if c == '\x7b' then flowStart .flowMappingStart
  else if c == ']' then flowEnd .flowSequenceEnd
  else if c == '\x7d' then flowEnd .flowMappingEnd
  else if c == ',' then flowEntry
  else if c == '-' && isSeparator next then blockEntry
  else if c == '?' && (flow || isSeparator next) then explicitKey
  else if c == ':' && (flow || isSeparator next) then value
  else if c == '*' then keyable (return .alias (← Scan.anchorName))
  else if c == '&' then keyable (return .anchor (← Scan.anchorName))
  else if c == '!' then keyable Scan.tag
  else if (c == '|' || c == '>') && !flow then blockScalar
  else if c == '\'' || c == '\x22' then keyable (return .scalar (← Scan.quoted c) false)
  else if startsPlain flow c next then plainScalar
  else refuse .strayCharacter
  return true

/-- Reads tokens to the end of the text. The count bounds their number. -/
def toEnd : Nat → Lex Unit
  | 0 => refuse .unfinished
  | count + 1 => do
    if ← token then toEnd count

end Lex

def tokens (chars : List Char) : Except Fault (List Token) := do
  if !chars.all isAllowed then throw (.refused .unprintableCharacter)
  let source := glyphs chars
  let (_, lexer) ← (Lex.toEnd (source.length + 1)).run { source := source }
  return lexer.tokens.toList

end AddonExchange.Yaml
