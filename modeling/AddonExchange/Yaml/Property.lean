import AddonExchange.Text.Utf8
import AddonExchange.Yaml.Scan
import AddonExchange.Yaml.Token

namespace AddonExchange.Yaml.Scan

def isUriChar (c : Char) : Bool := c.isAlphanum || "-;/?:@&=+$,_.!~*'()[]%".toList.contains c

/-- The bytes of percent escapes that follow each other, read together. -/
def uriEscapes : Scan (List Char) := do
  let bytes ← untilDone (fun (bytes : Bytes) => do
    if (← peek) == '%' then
      skip 1
      let digits ← takeExactly 2 isHexDigit .malformedTag
      return .inl (bytes ++ [(hexNumber digits).toUInt8])
    else return .inr bytes) []
  match Utf8.decode? bytes with
  | some chars => return chars
  | none => refuse .malformedTag

def uri : Scan (List Char) := do
  let chars ← untilDone (fun chars => do
    if (← peek) == '%' then return .inl (chars ++ (← uriEscapes))
    else
      let run ← takeWhile fun c => isUriChar c && c != '%'
      return if run.isEmpty then .inr chars else .inl (chars ++ run)) []
  if chars.isEmpty then refuse .malformedTag else return chars

/-- A handle: a name between exclamation marks, or a single one. -/
def handle : Scan (List Char) := do
  if (← peek) != '!' then refuse .malformedTag
  skip 1
  if (← peek) == ' ' then return ['!']
  let name ← takeWhile isNameChar
  if (← peek) != '!' then refuse .malformedTag
  skip 1
  return '!' :: name ++ ['!']

def number : Scan Nat := do
  let digits ← takeWhile Char.isDigit
  if digits.isEmpty then refuse .malformedDirective
  return digits.foldl (fun value digit => 10 * value + (digit.toNat - 0x30)) 0

/-- A directive, which fills its line but for a comment. -/
def directive : Scan Token := do
  skip 1
  let name ← takeWhile isNameChar
  if name.isEmpty || !isSpaceOrEnd (← peek) then refuse .malformedDirective
  let read ← match String.ofList name with
    | "YAML" => do
      skipWhile (· == ' ')
      let major ← number
      if (← peek) != '.' then refuse .malformedDirective
      skip 1
      let minor ← number
      if !isSpaceOrEnd (← peek) then refuse .malformedDirective
      pure (Directive.version major minor)
    | "TAG" => do
      skipWhile (· == ' ')
      let name ← handle
      if (← peek) != ' ' then refuse .malformedDirective
      skipWhile (· == ' ')
      let address ← uri
      if !isSpaceOrEnd (← peek) then refuse .malformedDirective
      pure (Directive.handle name address)
    | _ => do
      skipWhile (!isEnd ·)
      pure Directive.reserved
  skipSpacesAndComment
  if !isEnd (← peek) then refuse .malformedDirective
  let _ ← lineBreak
  return .directive read

def anchorName : Scan (List Char) := do
  skip 1
  let name ← takeWhile isNameChar
  let next ← peek
  if name.isEmpty || !(isSeparator next || "?:,]\x7d%@\x60".toList.contains next) then
    refuse .malformedAnchor
  return name

/-- Whether an exclamation mark follows before the next space. -/
def hasHandle : List Glyph → Bool
  | [] => false
  | glyph :: rest =>
    if glyph.char == '!' then true else if isSpaceOrEnd glyph.char then false else hasHandle rest

/-- A tag: an address in angle brackets, a handle with a suffix, a suffix alone, or nothing but
the mark. -/
def tag : Scan Token := do
  let next ← peekAt 1
  let read ←
    if next == '<' then do
      skip 2
      let address ← uri
      if (← peek) != '>' then refuse .malformedTag
      skip 1
      pure (Token.tag none address)
    else if isSeparator next then do
      skip 1
      pure (Token.tag none ['!'])
    else do
      let named := hasHandle ((← get).drop 1)
      let name ← if named then handle else do
        skip 1
        pure ['!']
      pure (Token.tag (some name) (← uri))
  if !isSpaceOrEnd (← peek) then refuse .malformedTag
  return read

end AddonExchange.Yaml.Scan
