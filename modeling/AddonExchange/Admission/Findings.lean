import AddonExchange.Text.Basic

namespace AddonExchange

/-- The paths found wrong, added to a list that may hold others, and how many were added. -/
structure Findings where
  count : Nat := 0
  list : List Text := []

namespace Findings

def add (findings : Findings) (paths : List Text) : Findings :=
  ⟨findings.count + paths.length, findings.list ++ paths⟩

/-- The path text of a directory below a path text: its name and a slash. -/
def inside (path name : Text) : Text := path ++ name ++ Text.ofString "/"

end Findings

end AddonExchange
