import AddonExchange.Text.Printable

namespace AddonExchange.Text

/-- The given number of lower-case hexadecimal digits of a number, leading zeros included. -/
def hexDigits (count n : Nat) : List Char :=
  let digits := Nat.toDigits 16 n
  List.replicate (count - digits.length) '0' ++ digits

def apostrophe : CodePoint := CodePoint.ofChar '\x27'

def quotation : CodePoint := CodePoint.ofChar '\x22'

/-- One code point inside quotes of the given kind. -/
def quotedUnit (quote c : CodePoint) : Text :=
  if c.val = 0x5C then ofString "\\\\"
  else if c = quote then ofString "\\" ++ [quote]
  else if c.val = 0x0A then ofString "\\n"
  else if c.val = 0x0D then ofString "\\r"
  else if c.val = 0x09 then ofString "\\t"
  else if c.isPrintable then [c]
  else if c.val < 0x100 then ofString "\\x" ++ ofChars (hexDigits 2 c.val)
  else if c.val < 0x10000 then ofString "\\u" ++ ofChars (hexDigits 4 c.val)
  else ofString "\\U" ++ ofChars (hexDigits 8 c.val)

/-- Single quotes enclose text unless it holds one and no double quote. -/
def quoteFor (t : Text) : CodePoint :=
  if t.contains apostrophe && !t.contains quotation then quotation else apostrophe

def quoted (t : Text) : Text :=
  let quote := quoteFor t
  quote :: t.flatMap (quotedUnit quote) ++ [quote]

end AddonExchange.Text
