import AddonExchange.Text.Blank

/-! Whole numbers in settings text. Around the digits there may be blanks, a plus sign,
leading zeros, single underscores between digits and a fraction of zeros. -/

namespace AddonExchange.SettingsInteger

/-- Why text is no whole number: it does not have the form, or it has too many digits. -/
inductive Refusal where
  | malformed
  | tooLong
deriving DecidableEq

/-- The most characters that the cleaned number may have. -/
def maxLength : Nat := 4300

/-- The code point of a character of the number format. -/
def mark (c : Char) : CodePoint := CodePoint.ofChar c

/-- Drops one plus sign unless a minus follows it. -/
def dropPlus? : Text → Option Text
  | [] => some []
  | c :: rest =>
    if c = mark '+' then (if rest.head? = some (mark '-') then none else some rest)
    else some (c :: rest)

/-- Drops zeros and underscores after a leading zero. The zero before a point stays, and so does
the last character of a number of nothing else. -/
def dropZeros? (last : CodePoint) : Text → Option Text
  | [] => some [last]
  | c :: rest =>
    if c = mark '0' ∨ c = mark '_' then dropZeros? c rest
    else if c = mark '.' then some (last :: c :: rest)
    else if c = mark '-' ∨ c.digit?.isSome then some (c :: rest)
    else none

/-- Drops leading zeros; fails unless a digit or a minus comes first. -/
def dropLeadingZeros? : Text → Option Text
  | [] => none
  | c :: rest =>
    if c = mark '0' then dropZeros? c rest
    else if c = mark '-' ∨ c.digit?.isSome then some (c :: rest)
    else none

def dropZeroFraction (t : Text) : Text :=
  let fraction := (t.dropWhile (· != mark '.')).drop 1
  if !fraction.isEmpty && fraction.all (· == mark '0') then t.takeWhile (· != mark '.') else t

def hasDoubledUnderscore : Text → Bool
  | first :: second :: rest =>
    (first == mark '_' && second == mark '_') || hasDoubledUnderscore (second :: rest)
  | _ => false

/-- Drops underscores where all stand alone and inside the number. -/
def dropUnderscores (t : Text) : Text :=
  if t.head? = some (mark '_') ∨ t.getLast? = some (mark '_') ∨ hasDoubledUnderscore t then t
  else t.filter (· != mark '_')

/-- The text without everything that may surround or interrupt a number. -/
def clean? (t : Text) : Option Text :=
  ((dropPlus? t.trim).bind dropLeadingZeros?).map fun rest =>
    dropUnderscores (dropZeroFraction rest)

def valueOf (digits : List Nat) : Nat := digits.foldl (fun value digit => 10 * value + digit) 0

/-- Reads digits without a leading zero; anything after them is refused. -/
def readDigits (signLength : Nat) (t : Text) : Except Refusal Nat :=
  let run := t.takeWhile fun c => c.digit?.isSome
  let rest := t.dropWhile fun c => c.digit?.isSome
  let digits := run.filterMap CodePoint.digit?
  if digits.isEmpty || (digits.head? == some 0 && 1 < digits.length) then .error .malformed
  else if maxLength < signLength + digits.length then .error .tooLong
  else if !rest.isEmpty then .error .malformed
  else .ok (valueOf digits)

def read (t : Text) : Except Refusal Int :=
  match clean? t with
  | none => .error .malformed
  | some [] => .error .malformed
  | some (c :: rest) =>
    if c = mark '-' then (readDigits 1 rest).map fun value => -(value : Int)
    else (readDigits 0 (c :: rest)).map fun value => (value : Int)

end AddonExchange.SettingsInteger
