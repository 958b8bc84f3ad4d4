import AddonExchange.Text.Basic
import AddonExchange.Yaml.Timestamp

namespace AddonExchange.Yaml

/-- What a node is to become. -/
inductive Tag where
  | null
  | bool
  | int
  | float
  | binary
  | timestamp
  | text
  | sequence
  | mapping
  | set
  | pairs
  | merge
  | default
  | unknown
deriving DecidableEq

namespace Tag

/-- The address that the handle of two exclamation marks stands for. -/
def standard : List Char := "tag:yaml.org,2002:".toList

def ofUri (uri : List Char) : Tag :=
  if standard.isPrefixOf uri then
    match String.ofList (uri.drop standard.length) with
    | "null" => null
    | "bool" => bool
    | "int" => int
    | "float" => float
    | "binary" => binary
    | "timestamp" => timestamp
    | "str" => text
    | "seq" => sequence
    | "map" => mapping
    | "set" => set
    | "omap" | "pairs" => pairs
    | "merge" => merge
    | "value" => default
    | _ => unknown
  else unknown

/-! ### The forms of plain scalars -/

def isRun (inClass : Char → Bool) (cs : List Char) : Bool := !cs.isEmpty && cs.all inClass

/-- The same characters without a sign before them. -/
def unsigned : List Char → List Char
  | '+' :: rest => rest
  | '-' :: rest => rest
  | cs => cs

def isSpacedDigit (c : Char) : Bool := c.isDigit || c == '_'

def isSixtieth : List Char → Bool
  | [c] => c.isDigit
  | [tens, ones] => '0' ≤ tens && tens ≤ '5' && ones.isDigit
  | _ => false

/-- Whether characters are digits and, after colons, numbers below sixty. -/
def isSexagesimal (cs : List Char) : Bool :=
  match cs.splitOn ':' with
  | first :: second :: rest =>
    first.head?.any Char.isDigit && first.all isSpacedDigit && (second :: rest).all isSixtieth
  | _ => false

def isBool (cs : List Char) : Bool :=
  ["yes", "Yes", "YES", "no", "No", "NO", "true", "True", "TRUE", "false", "False", "FALSE",
    "on", "On", "ON", "off", "Off", "OFF"].contains (String.ofList cs)

def isNull (cs : List Char) : Bool := ["~", "null", "Null", "NULL", ""].contains (String.ofList cs)

/-- Whether characters are a whole number: binary, octal, hexadecimal, decimal or sexagesimal. -/
def isInt (cs : List Char) : Bool :=
  match unsigned cs with
  | ['0'] => true
  | '0' :: 'b' :: digits => isRun (fun c => c == '0' || c == '1' || c == '_') digits
  | '0' :: 'x' :: digits => isRun (fun c => isHexDigit c || c == '_') digits
  | '0' :: digits => isRun (fun c => ('0' ≤ c && c ≤ '7') || c == '_') digits
  | c :: rest => c.isDigit && (rest.all isSpacedDigit || isSexagesimal (c :: rest))
  | [] => false

def isExponent : List Char → Bool
  | [] => true
  | e :: sign :: digits =>
    (e == 'e' || e == 'E') && (sign == '+' || sign == '-') && isRun Char.isDigit digits
  | _ => false

def isFraction (cs : List Char) : Bool := isExponent (cs.dropWhile isSpacedDigit)

/-- Whether characters are a number with a point, or one of the values that are not finite. -/
def isFloat (cs : List Char) : Bool :=
  let bare := unsigned cs
  let whole := bare.takeWhile (· != '.')
  match bare.drop whole.length with
  | [] => false
  | _ :: fraction =>
    if whole.isEmpty then
      (fraction.head?.any Char.isDigit && bare.length == cs.length && isFraction fraction) ||
        ["inf", "Inf", "INF"].contains (String.ofList fraction) ||
        (["nan", "NaN", "NAN"].contains (String.ofList fraction) && bare.length == cs.length)
    else
      (whole.head?.any Char.isDigit && whole.all isSpacedDigit && isFraction fraction) ||
        (isSexagesimal whole && fraction.all isSpacedDigit)

/-- The tag of characters that stand plain and without a tag of their own. -/
def ofPlainChars (cs : List Char) : Tag :=
  if isBool cs then bool
  else if isFloat cs then float
  else if isInt cs then int
  else if isNull cs then null
  else if Timestamp.isPlainForm cs then timestamp
  else match String.ofList cs with
    | "<<" => merge
    | "=" => default
    | "!" | "&" | "*" => unknown
    | _ => text

/-- The tag of text that stands plain; surrogates are in no form but that of text. -/
def ofPlain (content : Text) : Tag :=
  match content.toChars? with
  | none => text
  | some cs => ofPlainChars cs

end Tag

end AddonExchange.Yaml
