import AddonExchange.Text.Basic
import AddonExchange.Yaml.Glyph

namespace AddonExchange.Yaml

/-- A time of day, and how far it is from that of the prime meridian, in minutes. -/
structure ClockTime where
  hour : Nat
  minute : Nat
  second : Nat
  microsecond : Nat
  offset : Option Int
deriving DecidableEq

/-- A date, or a moment of a day. -/
structure Timestamp where
  year : Nat
  month : Nat
  day : Nat
  time : Option ClockTime
deriving DecidableEq

namespace Timestamp

def number (digits : List Char) : Nat :=
  digits.foldl (fun value digit => 10 * value + (digit.toNat - 0x30)) 0

/-- Between so and so many digits, and what follows them. -/
def digits? (least most : Nat) (cs : List Char) : Option (Nat × List Char) :=
  let run := (cs.take most).takeWhile Char.isDigit
  if least ≤ run.length then some (number run, cs.drop run.length) else none

/-- What follows a character, if it is next. -/
def after? (c : Char) : List Char → Option (List Char)
  | next :: rest => if next = c then some rest else none
  | [] => none

/-- The offset at the end of a moment: none, that of the prime meridian, or hours and minutes
with a sign. -/
def offset? (cs : List Char) : Option (Option Int) := do
  match cs.dropWhile isBlank with
  | [] => if cs.isEmpty then some none else none
  | ['Z'] => some (some 0)
  | sign :: rest =>
    if sign != '+' && sign != '-' then none
    let (hours, rest) ← digits? 1 2 rest
    let (minutes, rest) ← match rest with
      | ':' :: rest => digits? 2 2 rest
      | rest => some (0, rest)
    if !rest.isEmpty then none
    let total : Int := 60 * hours + minutes
    some (some (if sign == '-' then -total else total))

def clockTime? (cs : List Char) : Option ClockTime := do
  let (hour, rest) ← digits? 1 2 cs
  let (minute, rest) ← digits? 2 2 (← after? ':' rest)
  let (second, rest) ← digits? 2 2 (← after? ':' rest)
  let (fraction, rest) := match rest with
    | '.' :: rest => (rest.takeWhile Char.isDigit, rest.dropWhile Char.isDigit)
    | rest => ([], rest)
  let microsecond := number ((fraction ++ List.replicate 6 '0').take 6)
  return ⟨hour, minute, second, microsecond, ← offset? rest⟩

/-- A date, and after a separator a time of day. -/
def read? (cs : List Char) : Option Timestamp := do
  let (year, rest) ← digits? 4 4 cs
  let (month, rest) ← digits? 1 2 (← after? '-' rest)
  let (day, rest) ← digits? 1 2 (← after? '-' rest)
  match rest with
  | [] => return ⟨year, month, day, none⟩
  | c :: rest =>
    let rest ← if c == 'T' || c == 't' then some rest
      else if isBlank c then some (rest.dropWhile isBlank)
      else none
    return ⟨year, month, day, ← clockTime? rest⟩

/-- Whether a plain scalar is a timestamp; a date alone has all its digits. -/
def isPlainForm (cs : List Char) : Bool :=
  match read? cs with
  | none => false
  | some stamp => stamp.time.isSome || cs.length = 10

def isLeapYear (year : Nat) : Bool := year % 4 == 0 && (year % 100 != 0 || year % 400 == 0)

def daysOf (year month : Nat) : Nat :=
  if month = 2 then (if isLeapYear year then 29 else 28)
  else if month = 4 ∨ month = 6 ∨ month = 9 ∨ month = 11 then 30 else 31

def daysBefore (year month day : Nat) : Nat :=
  let years := year - 1
  (List.range (month - 1)).foldl (fun days earlier => days + daysOf year (earlier + 1))
    (365 * years + years / 4 - years / 100 + years / 400 + day)

/-- Microseconds up to a moment, at the prime meridian if the moment says where it is. -/
def microseconds (stamp : Timestamp) (time : ClockTime) : Int :=
  let minutes : Int := 1440 * daysBefore stamp.year stamp.month stamp.day + 60 * time.hour +
    time.minute - time.offset.getD 0
  (60 * minutes + time.second) * 1000000 + time.microsecond

/-- Whether two timestamps are the same date or the same moment. One that says where it is and one
that does not are never the same. -/
def isSame (first second : Timestamp) : Bool :=
  match first.time, second.time with
  | some time, some other =>
    time.offset.isSome == other.offset.isSome &&
      first.microseconds time == second.microseconds other
  | none, none => first == second
  | _, _ => false

/-- The wording of an offset that is a day or more. -/
def offsetComplaint (offset : Int) : String :=
  let seconds := offset % 1440 * 60
  "offset must be a timedelta strictly between -timedelta(hours=24) and timedelta(hours=24), " ++
    "not datetime.timedelta(days=" ++ toString (offset / 1440) ++
    (if seconds = 0 then "" else ", seconds=" ++ toString seconds) ++ ")."

def excessiveOffset? (stamp : Timestamp) : Option Int := do
  let time ← stamp.time
  let offset ← time.offset
  if 1440 ≤ offset.natAbs then some offset else none

def complaint? (stamp : Timestamp) : Option String :=
  if let some offset := stamp.excessiveOffset? then some (offsetComplaint offset)
  else if stamp.year = 0 then some "year 0 is out of range"
  else if stamp.month = 0 ∨ 12 < stamp.month then some "month must be in 1..12"
  else if stamp.day = 0 ∨ daysOf stamp.year stamp.month < stamp.day then
    some "day is out of range for month"
  else match stamp.time with
    | none => none
    | some time =>
      if 23 < time.hour then some "hour must be in 0..23"
      else if 59 < time.minute then some "minute must be in 0..59"
      else if 59 < time.second then some "second must be in 0..59"
      else none

end Timestamp

end AddonExchange.Yaml
