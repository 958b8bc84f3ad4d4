import AddonExchange.Bytes.Basic
import AddonExchange.Text.Basic
import AddonExchange.Value.Binary64

namespace AddonExchange

/-- A value of the host. The entries of a mapping are kept in the order given; of an object of
another type nothing is known but what its type is called. -/
inductive Value where
  | null
  | bool (b : Bool)
  | int (i : Int)
  | real (x : Binary64)
  | text (t : Text)
  | bytes (b : Bytes)
  | list (items : List Value)
  | map (entries : List (Text × Value))
  | object (kind : String)
deriving Inhabited

namespace Value

/-- The name that messages give to the kind of a value. -/
def kindName : Value → String
  | null => "NoneType"
  | bool _ => "bool"
  | int _ => "int"
  | real _ => "float"
  | text _ => "str"
  | bytes _ => "bytes"
  | list _ => "list"
  | map _ => "dict"
  | object kind => kind

def get? (key : Text) : Value → Option Value
  | map entries => entries.lookup key
  | _ => none

theorem sizeOf_pos (value : Value) : 0 < sizeOf value := by
  cases value with
  | null => exact Nat.one_pos
  | _ =>
    simp only [bool.sizeOf_spec, int.sizeOf_spec, real.sizeOf_spec, text.sizeOf_spec,
      bytes.sizeOf_spec, list.sizeOf_spec, map.sizeOf_spec, object.sizeOf_spec]
    omega

private theorem sizeOf_lookup_lt {key : Text} {entries : List (Text × Value)} {value : Value}
    (found : entries.lookup key = some value) : sizeOf value < sizeOf entries := by
  induction entries with
  | nil => simp at found
  | cons entry rest ih =>
    obtain ⟨name, held⟩ := entry
    rw [List.lookup_cons] at found
    split at found
    · cases found
      simp only [List.cons.sizeOf_spec, Prod.mk.sizeOf_spec]
      omega
    · have smaller := ih found
      simp only [List.cons.sizeOf_spec]
      omega

theorem sizeOf_get?_lt {key : Text} {value held : Value} (found : value.get? key = some held) :
    sizeOf held < sizeOf value := by
  cases value with
  | map entries =>
    have smaller := sizeOf_lookup_lt (show entries.lookup key = some held from found)
    simp only [map.sizeOf_spec]
    omega
  | _ => cases found

end Value

end AddonExchange
