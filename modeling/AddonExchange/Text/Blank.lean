import AddonExchange.Text.Basic

namespace AddonExchange

/-- First and last code points of the runs of white space. -/
def CodePoint.blankRanges : List (Nat × Nat) :=
  [(0x09, 0x0D), (0x20, 0x20), (0x85, 0x85), (0xA0, 0xA0), (0x1680, 0x1680), (0x2000, 0x200A),
   (0x2028, 0x2029), (0x202F, 0x202F), (0x205F, 0x205F), (0x3000, 0x3000)]

/-- Whether a code point has the property White_Space. -/
def CodePoint.isBlank (c : CodePoint) : Bool :=
  CodePoint.blankRanges.any fun run => run.1 ≤ c.val && c.val ≤ run.2

def Text.trim (t : Text) : Text :=
  ((t.dropWhile CodePoint.isBlank).reverse.dropWhile CodePoint.isBlank).reverse

end AddonExchange
