import AddonExchange.Text.Blank
import AddonExchange.Text.Quoted
import AddonExchange.Value.Binary64
import AddonExchange.Yaml.Tag

/-! The numbers that scalars spell. Underscores are passed over; a number in parts between
colons is sexagesimal. -/

namespace AddonExchange.Yaml.Number

def trimmed (cs : List Char) : List Char :=
  let blank (c : Char) := (CodePoint.ofChar c).isBlank
  ((cs.dropWhile blank).reverse.dropWhile blank).reverse

/-- Whether a sign says that a number is negative, and the characters after it. -/
def split (cs : List Char) : Bool × List Char := (cs.head? == some '-', Tag.unsigned cs)

def withoutUnderscores (t : Text) : Text := t.filter (· != CodePoint.ofChar '_')

/-! ### Whole numbers -/

/-- The most digits that a number may have whose base is no power of two. -/
def maxDigits : Nat := 4300

def valueOf (base : Nat) (digits : List Char) : Nat :=
  digits.foldl (fun value digit => base * value + hexValue digit) 0

def isDigitOf (base : Nat) (c : Char) : Bool := isHexDigit c && hexValue c < base

def refusal (base : Nat) (t : Text) : Text :=
  Text.ofString "invalid literal for int() with base " ++ Text.ofNat base ++ Text.ofString ": " ++
    t.quoted.take 200

/-- The letter after a leading zero that names a base. -/
def baseLetter? (base : Nat) : Option Char :=
  match base with
  | 2 => some 'b'
  | 8 => some 'o'
  | 16 => some 'x'
  | _ => none

/-- Digits without the zero and the letter that name their base. -/
def bareDigits (base : Nat) (cs : List Char) : List Char :=
  match cs with
  | '0' :: letter :: rest => if baseLetter? base = some letter.toLower then rest else cs
  | _ => cs

/-- A whole number of a base, between blanks and with a sign or without. -/
def readIn (base : Nat) (t : Text) : Except Text Int :=
  match t.toChars? with
  | none => .error (refusal base t)
  | some cs =>
    let (negative, unsigned) := split (trimmed cs)
    let digits := bareDigits base unsigned
    if digits.isEmpty || !digits.all (isDigitOf base) then .error (refusal base t)
    else if base = 10 ∧ maxDigits < digits.length then
      .error (Text.ofString "Exceeds the limit (" ++ Text.ofNat maxDigits ++
        Text.ofString " digits) for integer string conversion: value has " ++
        Text.ofNat digits.length ++
        Text.ofString " digits; use sys.set_int_max_str_digits() to increase the limit")
    else .ok (if negative then -(valueOf base digits : Int) else valueOf base digits)

def colon : CodePoint := CodePoint.ofChar ':'

/-- A whole number without a sign, whose first characters name its base. -/
def readUnsigned (t : Text) : Except Text Int :=
  match t with
  | [] => .error (Text.ofString "string index out of range")
  | first :: rest =>
    if t = Text.ofString "0" then .ok 0
    else if first = CodePoint.ofChar '0' ∧ rest.head? = some (CodePoint.ofChar 'b') then
      readIn 2 (rest.drop 1)
    else if first = CodePoint.ofChar '0' ∧ rest.head? = some (CodePoint.ofChar 'x') then
      readIn 16 (rest.drop 1)
    else if first = CodePoint.ofChar '0' then readIn 8 t
    else if t.contains colon then
      (t.splitOn colon).foldlM (fun value part => (readIn 10 part).map (60 * value + ·)) 0
    else readIn 10 t

def readInt (content : Text) : Except Text Int :=
  let t := withoutUnderscores content
  if t.head? = some (CodePoint.ofChar '-') then (readUnsigned (t.drop 1)).map (-·)
  else if t.head? = some (CodePoint.ofChar '+') then readUnsigned (t.drop 1)
  else readUnsigned t

/-! ### Floating-point numbers -/

/-- The machine number nearest to a decimal one. Exponents beyond all machine numbers are cut
short. -/
def nearest (digits : List Char) (exponent : Int) : Float :=
  let mantissa := valueOf 10 digits
  if mantissa = 0 then 0
  else if 400 < exponent + digits.length then 1.0 / 0.0
  else if exponent + digits.length < -400 then 0
  else Float.ofScientific mantissa (exponent < 0) exponent.natAbs

def exponent? (cs : List Char) : Option Int :=
  match cs with
  | [] => some 0
  | e :: rest =>
    let (negative, digits) := split rest
    if e.toLower = 'e' ∧ Tag.isRun Char.isDigit digits then
      some (if negative then -(valueOf 10 digits : Int) else valueOf 10 digits)
    else none

/-- An unsigned decimal number, or a word for one of the values that are not finite. -/
def decimal? (cs : List Char) : Option Float :=
  match String.ofList (cs.map Char.toLower) with
  | "inf" | "infinity" => some (1.0 / 0.0)
  | "nan" => some (0.0 / 0.0)
  | _ =>
    let whole := cs.takeWhile Char.isDigit
    let (fraction, rest) := match cs.drop whole.length with
      | '.' :: rest => (rest.takeWhile Char.isDigit, rest.dropWhile Char.isDigit)
      | rest => ([], rest)
    if whole.isEmpty && fraction.isEmpty then none
    else
      (exponent? rest).map fun exponent =>
        nearest (whole ++ fraction) (exponent - fraction.length)

/-- A decimal number between blanks and with a sign or without. -/
def readDecimal (t : Text) : Except Text Float :=
  let read := do
    let cs ← t.toChars?
    let (negative, unsigned) := split (trimmed cs)
    let x ← decimal? unsigned
    some (if negative then -x else x)
  match read with
  | some x => .ok x
  | none => .error (Text.ofString "could not convert string to float: " ++ t.quoted)

def sexagesimal (parts : List Float) : Float :=
  (parts.reverse.foldl (fun (sum, weight) part => (sum + part * weight, weight * 60)) (0.0, 1.0)).1

def readFloat (content : Text) : Except Text Binary64 := do
  let t := (withoutUnderscores content).map CodePoint.foldAscii
  let negative := t.head? = some (CodePoint.ofChar '-')
  let t := if negative ∨ t.head? = some (CodePoint.ofChar '+') then t.drop 1 else t
  let x ←
    if t = Text.ofString ".inf" then pure (1.0 / 0.0)
    else if t = Text.ofString ".nan" then pure (0.0 / 0.0)
    else if t.contains colon then sexagesimal <$> (t.splitOn colon).mapM readDecimal
    else readDecimal t
  return Binary64.ofFloat (if negative then -x else x)

end AddonExchange.Yaml.Number
