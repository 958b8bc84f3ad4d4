import AddonExchange.Text.Basic

namespace AddonExchange

/-- Causes for which a host value is refused. The kinds are those found in place of what was
expected. -/
inductive TreeFault.Reason where
  | notMapping (kind : String)
  | missingName
  | nameNotText (kind : String)
  | childrenNotList (tag kind : String)
  | contentsNotLatin1
  | contentsNotBytes (kind : String)
  | hashNotText (kind : String)
  | tooDeep (limit : Int)
deriving DecidableEq

/-- A cause together with the path of the entry it was found in. -/
structure TreeFault where
  path : Text
  reason : TreeFault.Reason
deriving DecidableEq

namespace TreeFault

def Reason.message : Reason → Text
  | notMapping kind => Text.ofString ("expected a mapping, got " ++ kind)
  | missingName => Text.ofString "missing 'name'"
  | nameNotText kind => Text.ofString ("'name' should be str, got " ++ kind)
  | childrenNotList tag kind => Text.ofString ("'" ++ tag ++ "' should be a list, got " ++ kind)
  | contentsNotLatin1 => Text.ofString "'contents' string is not latin-1"
  | contentsNotBytes kind => Text.ofString ("'contents' should be bytes, got " ++ kind)
  | hashNotText kind => Text.ofString ("'hash' should be str, got " ++ kind)
  | tooDeep limit =>
    Text.ofString "tree deeper than " ++ Text.ofInt limit ++ Text.ofString " levels"

/-- The path, or a word for the root where it is empty, and the wording of the cause. -/
def message (fault : TreeFault) : Text :=
  (if fault.path.isEmpty then Text.ofString "<root>" else fault.path) ++ Text.ofString ": " ++
    fault.reason.message

end TreeFault

end AddonExchange
