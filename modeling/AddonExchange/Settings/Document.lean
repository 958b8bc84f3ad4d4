import AddonExchange.Bytes.Basic
import AddonExchange.Value.Binary64
import AddonExchange.Yaml.Timestamp

/-! What a settings file holds. A collection can hold itself; it is followed down to where it comes
back to a collection that it is in. -/

namespace AddonExchange

/-- The document of a settings file, or a part of it. -/
inductive Document where
  | null
  | bool (b : Bool)
  | int (i : Int)
  | real (x : Binary64)
  | text (t : Text)
  | bytes (b : Bytes)
  | moment (stamp : Yaml.Timestamp)
  | list (items : List Document)
  | pair (key value : Document)
  | set (members : List Document)
  | map (entries : List (Document × Document))
  -- A list, a set or a mapping that this part of it is in.
  | enclosing
deriving Inhabited

namespace Document

/-- The name that messages give to the kind of a document. -/
def kindName : Document → String
  | null => "NoneType"
  | bool _ => "bool"
  | int _ => "int"
  | real _ => "float"
  | text _ => "str"
  | bytes _ => "bytes"
  | moment stamp => if stamp.time.isSome then "datetime" else "date"
  | list _ => "list"
  | pair .. => "tuple"
  | set _ => "set"
  | map _ | enclosing => "dict"

def sameReal (first second : Binary64) : Bool :=
  first == second || (first.toInt?.isSome && first.toInt? == second.toInt?)

/-- Whether two keys are the same. Numbers and truth values are compared as numbers. -/
def sameKey : Document → Document → Bool
  | null, null => true
  | text t, text other => t == other
  | bytes b, bytes other => b == other
  | moment stamp, moment other => stamp.isSame other
  | real x, real other => sameReal x other
  | real x, int i | int i, real x => x.toInt? == some i
  | real x, bool b | bool b, real x => x.toInt? == some b.toInt
  | int i, int other => i == other
  | int i, bool b | bool b, int i => i == b.toInt
  | bool b, bool other => b == other
  | _, _ => false

/-- Entries with one more at the end, or with the value of its key replaced in place. -/
def put (key value : Document) : List (Document × Document) → List (Document × Document)
  | [] => [(key, value)]
  | entry :: rest =>
    if entry.1.sameKey key then (entry.1, value) :: rest else entry :: put key value rest

/-- Entries in which each key stands once, with its last value. -/
def distinct (entries : List (Document × Document)) : List (Document × Document) :=
  entries.foldl (fun done entry => put entry.1 entry.2 done) []

def isText (key : Text) : Document → Bool
  | text t => t == key
  | _ => false

def lookup? (entries : List (Document × Document)) (key : Text) : Option Document :=
  (entries.find? fun entry => entry.1.isText key).map (·.2)

end Document

end AddonExchange
