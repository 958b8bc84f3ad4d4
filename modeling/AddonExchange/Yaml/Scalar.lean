import AddonExchange.Text.Basic
import AddonExchange.Yaml.Scan

/-! The texts of scalars in their plain, quoted and block forms. Lines are folded: one line end
becomes a space, and of several all but the first stay. -/

namespace AddonExchange.Yaml.Scan

/-- What a line end and the empty lines after it fold into. -/
def fold (first : List Char) (more : List Char) : List Char :=
  if first == ['\n'] then (if more.isEmpty then [' '] else more) else first ++ more

/-! ### Plain scalars -/

/-- Whether a plain scalar ends before a character that another one follows. -/
def endsPlain (inFlow : Bool) (c next : Char) : Bool :=
  isSeparator c ||
    (c == ':' && (isSeparator next || (inFlow && ",[]\x7b\x7d".toList.contains next))) ||
    (inFlow && ",?[]\x7b\x7d".toList.contains c)

def plainRun (inFlow : Bool) : List Glyph → List Char
  | [] => []
  | glyph :: rest =>
    let next := match rest with
      | [] => endMark
      | following :: _ => following.char
    if endsPlain inFlow glyph.char next then [] else glyph.char :: plainRun inFlow rest

/-- Line ends with the spaces between them, up to a document separator if there is one. Tells
whether there is none. -/
def plainBreaks : Scan (List Char × Bool) :=
  untilDone (fun breaks => do
    let c ← peek
    if c == ' ' then
      skip 1
      return .inl breaks
    else if isBreak c then
      let breaks := breaks ++ (← lineBreak)
      return if ← atDocumentSeparator then .inr (breaks, false) else .inl breaks
    else return .inr (breaks, true)) []

/-- What stands between two parts of a plain scalar, and whether it has a line end. -/
def plainSpaces : Scan (List Char × Bool) := do
  let spaces ← takeWhile (· == ' ')
  if isBreak (← peek) then
    let first ← lineBreak
    if ← atDocumentSeparator then return ([], true)
    let (more, continues) ← plainBreaks
    return (if continues then fold first more else [], true)
  else return (spaces, false)

/-- A plain scalar, and whether the line ended after it. -/
def plain (indent : Int) (inFlow : Bool) : Scan (Text × Bool) := do
  let (chars, ended) ← untilDone (fun (chars, spaces, ended) => do
    let run := plainRun inFlow (← get)
    if run.isEmpty || (← peek) == '#' then return .inr (chars, ended)
    skip run.length
    let chars := chars ++ spaces ++ run
    let (spaces, ended) ← plainSpaces
    if spaces.isEmpty || (!inFlow && (← column) < indent) then return .inr (chars, ended)
    return .inl (chars, spaces, ended)) (([], [], false) : List Char × List Char × Bool)
  return (Text.ofChars chars, ended)

/-! ### Quoted scalars -/

/-- What a character after a backslash stands for. -/
def escape? (c : Char) : Option Char :=
  match c with
  | '0' => some '\x00'
  | 'a' => some '\x07'
  | 'b' => some '\x08'
  | 't' | '\t' => some '\t'
  | 'n' => some '\n'
  | 'v' => some '\x0B'
  | 'f' => some '\x0C'
  | 'r' => some '\r'
  | 'e' => some '\x1B'
  | 'N' => some '\x85'
  | '_' => some '\xA0'
  | 'L' => some '\u2028'
  | 'P' => some '\u2029'
  | ' ' | '/' | '\\' | '\x22' => some c
  | _ => none

/-- How many hexadecimal digits follow a character after a backslash. -/
def escapeLength? (c : Char) : Option Nat :=
  match c with
  | 'x' => some 2
  | 'u' => some 4
  | 'U' => some 8
  | _ => none

def codePoint (n : Nat) : Scan CodePoint :=
  if inRange : n < 0x110000 then return ⟨n, inRange⟩
  else throw (.badScalar (Text.ofString "chr() arg not in range(0x110000)"))

/-- Line ends inside a quoted scalar with the blanks around them. -/
def quotedBreaks : Scan (List Char) :=
  untilDone (fun breaks => do
    if ← atDocumentSeparator then refuse .separatorInQuote
    skipWhile isBlank
    if isBreak (← peek) then return .inl (breaks ++ (← lineBreak))
    else return .inr breaks) []

def escaped : Scan Text := do
  skip 1
  let c ← peek
  match escape? c with
  | some plain =>
    skip 1
    return [CodePoint.ofChar plain]
  | none =>
    match escapeLength? c with
    | some count =>
      skip 1
      let digits ← takeExactly count isHexDigit .malformedEscape
      return [← codePoint (hexNumber digits)]
    | none =>
      if isBreak c then
        let _ ← lineBreak
        return Text.ofChars (← quotedBreaks)
      else refuse .malformedEscape

/-- Blanks inside a quoted scalar, folded if a line ends among them. -/
def quotedSpaces : Scan Text := do
  let blanks ← takeWhile isBlank
  let c ← peek
  if c == endMark then refuse .unclosedQuote
  else if isBreak c then
    let first ← lineBreak
    return Text.ofChars (fold first (← quotedBreaks))
  else return Text.ofChars blanks

/-- A quoted scalar. Double quotes know escapes; inside single ones the quote is written
twice. -/
def quoted (quote : Char) : Scan Text := do
  skip 1
  let isDouble := quote == '\x22'
  untilDone (fun text => do
    let c ← peek
    if c == quote then
      skip 1
      if !isDouble && (← peek) == quote then
        skip 1
        return .inl (text ++ [CodePoint.ofChar quote])
      else return .inr text
    else if isSeparator c then return .inl (text ++ (← quotedSpaces))
    else if isDouble && c == '\\' then return .inl (text ++ (← escaped))
    else
      skip 1
      return .inl (text ++ [CodePoint.ofChar c])) ([] : Text)

/-! ### Block scalars -/

/-- What happens to line ends after the last line of a block scalar. -/
inductive Chomping where
  | strip
  | clip
  | keep
deriving DecidableEq

def chomping? : Scan (Option Chomping) := do
  match ← peek with
  | '+' =>
    skip 1
    return some .keep
  | '-' =>
    skip 1
    return some .strip
  | _ => return none

def increment? : Scan (Option Nat) := do
  let c ← peek
  if c.isDigit then
    if c == '0' then refuse .malformedBlockHeader
    skip 1
    return some (c.toNat - 0x30)
  else return none

/-- The header of a block scalar: a sign and a digit in either order, each of them optional. -/
def blockHeader : Scan (Chomping × Option Nat) := do
  let sign ← chomping?
  let digit ← increment?
  let late ← if sign.isNone && digit.isSome then chomping? else pure none
  if !isSpaceOrEnd (← peek) then refuse .malformedBlockHeader
  skipSpacesAndComment
  if !isEnd (← peek) then refuse .malformedBlockHeader
  let _ ← lineBreak
  return ((sign <|> late).getD .clip, digit)

/-- The empty lines before the first line of a block scalar, and the deepest column among
them. -/
def blockIndentation : Scan (List Char × Nat) :=
  untilDone (fun (breaks, deepest) => do
    let c ← peek
    if c == ' ' then
      skip 1
      return .inl (breaks, max deepest (← column))
    else if isBreak c then return .inl (breaks ++ (← lineBreak), deepest)
    else return .inr (breaks, deepest)) (([], 0) : List Char × Nat)

def skipIndent (indent : Nat) : Scan Unit := do
  let start ← column
  let spaces := (← get).takeWhile fun glyph => glyph.char == ' '
  skip (min spaces.length (indent - start))

def blockBreaks (indent : Nat) : Scan (List Char) := do
  skipIndent indent
  untilDone (fun breaks => do
    if isBreak (← peek) then
      let breaks := breaks ++ (← lineBreak)
      skipIndent indent
      return .inl breaks
    else return .inr breaks) []

/-- The lines of a block scalar: the characters so far, the last line end and the empty lines
after it. -/
def blockLines (folded : Bool) (indent : Nat) (breaks : List Char) :
    Scan (List Char × List Char × List Char) := do
  untilDone (fun (chars, ending, breaks) => do
    if (← column) != indent || (← peek) == endMark then return .inr (chars, ending, breaks)
    let startsFull := !isBlank (← peek)
    let line ← takeWhile (!isEnd ·)
    let chars := chars ++ breaks ++ line
    let ending ← lineBreak
    let breaks ← blockBreaks indent
    if (← column) != indent || (← peek) == endMark then return .inr (chars, ending, breaks)
    let joined :=
      if folded && ending == ['\n'] && startsFull && !isBlank (← peek) then
        if breaks.isEmpty then [' '] else []
      else ending
    return .inl (chars ++ joined, [], breaks))
      (([], [], breaks) : List Char × List Char × List Char)

def block (indent : Int) : Scan Text := do
  let folded := (← peek) == '>'
  skip 1
  let (chomping, digit) ← blockHeader
  let least := max 1 (indent + 1).toNat
  let (deep, breaks) ← match digit with
    | some increment => do
      let deep := least + increment - 1
      pure (deep, ← blockBreaks deep)
    | none => do
      let (breaks, deepest) ← blockIndentation
      pure (max least deepest, breaks)
  let (chars, ending, breaks) ← blockLines folded deep breaks
  return Text.ofChars (match chomping with
    | .strip => chars
    | .clip => chars ++ ending
    | .keep => chars ++ ending ++ breaks)

end AddonExchange.Yaml.Scan
