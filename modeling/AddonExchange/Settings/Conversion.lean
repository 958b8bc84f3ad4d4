import AddonExchange.Settings.Document
import AddonExchange.Settings.Integer
import AddonExchange.Settings.Validation
import AddonExchange.Text.Utf8

namespace AddonExchange

namespace Checked

def integerOfText (t : Text) : Checked Int :=
  match SettingsInteger.read t with
  | .ok i => .ok i
  | .error .malformed => fail .unreadableInteger
  | .error .tooLong => fail .oversizedInteger

def wellFormed (t : Text) : Checked Text :=
  if t.any CodePoint.isSurrogate then fail .undecodableText else .ok t

/-- The number of values that a signed word has on either side of zero. -/
def wordBound : Int := 0x8000000000000000

/-- Whether a number lies strictly between the bounds of signed words. -/
def isWordSized (i : Int) : Bool := -wordBound < i && i < wordBound

def integerOfReal (x : Binary64) : Checked Int :=
  match x with
  | .finite .. =>
    match x.toInt? with
    | none => fail .fractionalInteger
    | some i => if isWordSized i then .ok i else fail .oversizedInteger
  | _ => fail .notFinite

def integer : Document → Checked Int
  | .int i => .ok i
  | .bool b => .ok b.toInt
  | .real x => integerOfReal x
  | .text t => (wellFormed t).bind integerOfText
  | .bytes bytes =>
    match Text.ofUtf8? bytes with
    | some t => integerOfText t
    | none => fail .unreadableInteger
  | _ => fail .notInteger

def noWords : List String := ["0", "f", "n", "no", "off", "false"]

def yesWords : List String := ["1", "t", "y", "on", "yes", "true"]

/-- A truth value from a word in any ASCII case. -/
def booleanOfText (t : Text) : Checked Bool :=
  let word := t.map CodePoint.foldAscii
  if noWords.any fun no => Text.ofString no == word then .ok false
  else if yesWords.any fun yes => Text.ofString yes == word then .ok true
  else fail .unreadableBoolean

def booleanOfInt (i : Int) : Checked Bool :=
  if i = 0 then .ok false else if i = 1 then .ok true else fail .unreadableBoolean

def boolean : Document → Checked Bool
  | .bool b => .ok b
  | .int i =>
    if isWordSized i || i == -wordBound then booleanOfInt i else fail .notBoolean
  | .real x =>
    match x.toInt? with
    | some i => if isWordSized i then booleanOfInt i else fail .notBoolean
    | none => fail .notBoolean
  | .text t => (wellFormed t).bind booleanOfText
  | .bytes bytes =>
    match Text.ofUtf8? bytes with
    | some t => booleanOfText t
    | none => fail .unreadableBoolean
  | _ => fail .notBoolean

/-- Text, which may hold surrogates if it comes as text. -/
def text : Document → Checked Text
  | .text t => .ok t
  | .bytes bytes =>
    match Text.ofUtf8? bytes with
    | some t => .ok t
    | none => fail .undecodableText
  | _ => fail .notText

def literal (words : List String) : Document → Checked Text
  | .text t => (wellFormed t).bind fun t =>
    if words.any fun word => Text.ofString word == t then .ok t else fail (.notAmong words)
  | _ => fail (.notAmong words)

end Checked

/-- The validation of documents, none of which is settings already. -/
def Document.validator : Validator Document where
  integer := Checked.integer
  boolean := Checked.boolean
  text := Checked.text
  literal := Checked.literal
  entries?
    | map entries => some (lookup? entries)
    | _ => none
  server? _ := none
  tree? _ := none
  sync? _ := none
  settings? _ := none
  ofInt := int
  ofBool := bool
  ofText := text
  ofEntries entries := map (entries.map fun (key, value) => (text key, value))

/-- What a program hands over to be validated: a document, a mapping, or settings that it made
before. -/
inductive Given where
  | plain (document : Document)
  | mapping (entries : List (Text × Given))
  | server (ready : ServerSettings)
  | tree (ready : TreeSettings)
  | sync (ready : SyncSettings)
  | settings (ready : Settings)

namespace Given

def plain? : Given → Option Document
  | plain document => some document
  | _ => none

/-- A conversion of documents, which refuses everything else. -/
def converted {α : Type} (convert : Document → Checked α) (cause : Issue.Cause) (given : Given) :
    Checked α :=
  match given.plain? with
  | some document => convert document
  | none => Checked.fail cause

def entries? : Given → Option (Text → Option Given)
  | plain document =>
    (Document.validator.entries? document).map fun entries key => (entries key).map plain
  | mapping entries => some fun key => entries.lookup key
  | _ => none

/-- The validation of what a program hands over. Settings are taken as they are. -/
def validator : Validator Given where
  integer := converted Checked.integer .notInteger
  boolean := converted Checked.boolean .notBoolean
  text := converted Checked.text .notText
  literal words := converted (Checked.literal words) (.notAmong words)
  entries? := entries?
  server?
    | server ready => some ready
    | _ => none
  tree?
    | tree ready => some ready
    | _ => none
  sync?
    | sync ready => some ready
    | _ => none
  settings?
    | settings ready => some ready
    | _ => none
  ofInt i := plain (.int i)
  ofBool b := plain (.bool b)
  ofText t := plain (.text t)
  ofEntries := mapping

end Given

end AddonExchange
