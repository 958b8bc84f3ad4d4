namespace AddonExchange.Yaml

/-- A character and its place: its position in the text, its line and its column. -/
structure Glyph where
  char : Char
  index : Nat
  line : Nat
  column : Nat

/-- Stands after the last character of a text and in no other place. -/
def endMark : Char := '\x00'

def byteOrderMark : Char := '\uFEFF'

def isBreak (c : Char) : Bool :=
  c == '\n' || c == '\r' || c == '\x85' || c == '\u2028' || c == '\u2029'

def isBlank (c : Char) : Bool := c == ' ' || c == '\t'

/-- Line ends and the end of the text. -/
def isEnd (c : Char) : Bool := c == endMark || isBreak c

/-- Spaces, line ends and the end of the text. -/
def isSpaceOrEnd (c : Char) : Bool := c == ' ' || isEnd c

/-- Whatever separates a token from the next. -/
def isSeparator (c : Char) : Bool := isBlank c || isEnd c

/-- Characters of names: ASCII letters and digits, the hyphen and the underscore. -/
def isNameChar (c : Char) : Bool := c.isAlphanum || c == '-' || c == '_'

def isHexDigit (c : Char) : Bool :=
  c.isDigit || ('a' ≤ c && c ≤ 'f') || ('A' ≤ c && c ≤ 'F')

def hexValue (c : Char) : Nat :=
  if c.isDigit then c.toNat - 0x30
  else if 'a' ≤ c then c.toNat - 0x61 + 10
  else c.toNat - 0x41 + 10

def hexNumber (digits : List Char) : Nat :=
  digits.foldl (fun value digit => 16 * value + hexValue digit) 0

/-- Whether a character may stand in a text at all. -/
def isAllowed (c : Char) : Bool :=
  c == '\t' || c == '\n' || c == '\r' || (' ' ≤ c && c ≤ '~') || c == '\x85' ||
    (0xA0 ≤ c.toNat && c.toNat ≤ 0xD7FF) || (0xE000 ≤ c.toNat && c.toNat ≤ 0xFFFD) ||
    0x10000 ≤ c.toNat

/-- Whether a new line begins after a character; a carriage return leaves that to the line feed
that follows it. -/
def beginsLine (c : Char) (rest : List Char) : Bool :=
  isBreak c && !(c == '\r' && rest.head? == some '\n')

/-- Characters with their places, followed by the end mark. -/
def placeFrom (index line column : Nat) : List Char → List Glyph
  | [] => [⟨endMark, index, line, column⟩]
  | c :: rest =>
    ⟨c, index, line, column⟩ ::
      if beginsLine c rest then placeFrom (index + 1) (line + 1) 0 rest
      else placeFrom (index + 1) line (if c == byteOrderMark then column else column + 1) rest

/-- The glyphs of a text, without a byte order mark at its start. -/
def glyphs (chars : List Char) : List Glyph :=
  let placed := placeFrom 0 0 0 chars
  if chars.head? == some byteOrderMark then placed.drop 1 else placed

end AddonExchange.Yaml
