/-! Text as a list of code points. Names arrive from hosts whose text may hold
surrogates, so a code point is any number below 0x110000 and not only a Unicode
scalar value. -/

namespace AddonExchange

/-- A Unicode code point, surrogates included. -/
abbrev CodePoint := Fin 0x110000

/-- Text as a sequence of code points. -/
abbrev Text := List CodePoint

namespace CodePoint

theorem char_lt (c : Char) : c.toNat < 0x110000 := by
  have valid := c.valid
  simp only [UInt32.isValidChar, Nat.isValidChar] at valid
  show c.val.toNat < 0x110000
  omega

/-- The code point of a scalar value. -/
def ofChar (c : Char) : CodePoint := ⟨c.toNat, char_lt c⟩

/-- Surrogates are the code points that no scalar value has. -/
def isSurrogate (c : CodePoint) : Bool := 0xD800 ≤ c.val && c.val < 0xE000

/-- Maps `A` to `Z` to `a` to `z` and leaves every other code point alone. -/
def foldAscii (c : CodePoint) : CodePoint :=
  if inRange : 0x41 ≤ c.val ∧ c.val ≤ 0x5A then ⟨c.val + 0x20, by omega⟩ else c

def digit? (c : CodePoint) : Option Nat :=
  if 0x30 ≤ c.val ∧ c.val ≤ 0x39 then some (c.val - 0x30) else none

/-- The scalar value of a code point that is no surrogate. -/
def toChar? (c : CodePoint) : Option Char :=
  if c.val.isValidChar then some (Char.ofNat c.val) else none

end CodePoint

namespace Text

def ofChars (chars : List Char) : Text := chars.map CodePoint.ofChar

def ofString (s : String) : Text := ofChars s.toList

instance : Coe String Text := ⟨ofString⟩

/-- The scalar values of text without surrogates. -/
def toChars? (t : Text) : Option (List Char) := t.mapM CodePoint.toChar?

/-- The decimal digits of a natural number. -/
def ofNat (n : Nat) : Text := ofChars (Nat.toDigits 10 n)

/-- The decimal digits of an integer after its sign, which only negative numbers show. -/
def ofInt : Int → Text
  | .ofNat n => ofNat n
  | .negSucc n => ofString "-" ++ ofNat (n + 1)

/-- The texts one after the other with a separator between them. -/
def join (separator : Text) (texts : List Text) : Text := (texts.intersperse separator).flatten

end Text

end AddonExchange
