import AddonExchange.Tree.Basic

/-! Trees as rows in preorder. A row is a directory without its subdirectories but with their
number, so the rows of whole trees one after the other determine the trees. -/

namespace AddonExchange

/-- A directory whose subdirectories are the trees of the rows that follow. -/
structure Row where
  name : Text
  files : List File
  arity : Nat

namespace Dir

/-- Puts a directory on top of the trees that follow it, taking as many of them for its
subdirectories as its row says. -/
def settle (row : Row) (settled : List Dir) : List Dir :=
  ⟨row.name, row.files, settled.take row.arity⟩ :: settled.drop row.arity

/-- The trees of which rows are the preorder. Rows are settled from the last to the first, so
all trees below a directory are complete before it takes them. -/
def ofPreorder (rows : List Row) : List Dir := rows.foldr settle []

mutual

def preorder : Dir → List Row
  | ⟨name, files, dirs⟩ => ⟨name, files, dirs.length⟩ :: preorderAll dirs

def preorderAll : List Dir → List Row
  | [] => []
  | dir :: rest => dir.preorder ++ preorderAll rest

end

end Dir

end AddonExchange
