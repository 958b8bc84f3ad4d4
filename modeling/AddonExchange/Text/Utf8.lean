import AddonExchange.Bytes.Basic
import AddonExchange.Text.Basic

/-! UTF-8 for text that may hold surrogates. The wide form codes a surrogate like any other
code point; the raw form takes U+DC80 to U+DCFF as the bytes 0x80 to 0xFF that they carry
and has no bytes for other surrogates; reading is strict and yields scalar values only. -/

namespace AddonExchange

namespace Utf8

/-- The bytes of one code point, in the shortest form that can hold it. -/
def encode (code : Nat) : Bytes :=
  if code < 0x80 then [code.toUInt8]
  else if code < 0x800 then [(0xC0 + code / 64).toUInt8, (0x80 + code % 64).toUInt8]
  else if code < 0x10000 then
    [(0xE0 + code / 4096).toUInt8, (0x80 + code / 64 % 64).toUInt8, (0x80 + code % 64).toUInt8]
  else
    [(0xF0 + code / 262144).toUInt8, (0x80 + code / 4096 % 64).toUInt8,
      (0x80 + code / 64 % 64).toUInt8, (0x80 + code % 64).toUInt8]

/-- How many bytes a lead byte announces. -/
def width (lead : UInt8) : Nat :=
  if lead < 0x80 then 1 else if lead < 0xE0 then 2 else if lead < 0xF0 then 3 else 4

/-- The number that the payload bits of one to four bytes spell. -/
def payload : Bytes → Nat
  | [a] => a.toNat
  | [a, b] => a.toNat % 32 * 64 + b.toNat % 64
  | [a, b, c] => a.toNat % 16 * 4096 + b.toNat % 64 * 64 + c.toNat % 64
  | [a, b, c, d] => a.toNat % 8 * 262144 + b.toNat % 64 * 4096 + c.toNat % 64 * 64 + d.toNat % 64
  | _ => 0

/-- Reads a whole byte string. A unit counts only if it is what its own character is
written as, which refuses overlong, truncated and surrogate forms alike. -/
def decode? (bytes : Bytes) : Option (List Char) :=
  match bytes with
  | [] => some []
  | lead :: rest =>
    let unit := (lead :: rest).take (width lead)
    let code := payload unit
    if code.isValidChar ∧ encode code = unit then
      (decode? (rest.drop (width lead - 1))).map (Char.ofNat code :: ·)
    else none
termination_by bytes.length
decreasing_by simp only [List.length_drop, List.length_cons]; omega

end Utf8

namespace Text

def utf8 (chars : List Char) : Bytes := chars.flatMap fun c => Utf8.encode c.toNat

/-- Every code point in UTF-8 form, surrogates like any other. -/
def wideBytes (t : Text) : Bytes := t.flatMap fun c => Utf8.encode c.val

/-- The bytes that one code point of a stored name stands for. -/
def rawUnit? (c : CodePoint) : Option Bytes :=
  if 0xDC80 ≤ c.val ∧ c.val ≤ 0xDCFF then some [(c.val - 0xDC00).toUInt8]
  else if c.isSurrogate then none
  else some (Utf8.encode c.val)

/-- The bytes that a name stands for, where some code points carry raw bytes. -/
def rawBytes? (t : Text) : Option Bytes := (t.mapM rawUnit?).map List.flatten

def ofUtf8? (bytes : Bytes) : Option Text := (Utf8.decode? bytes).map ofChars

/-- The bytes of text whose code points all fit in one byte. -/
def latin1? (t : Text) : Option Bytes :=
  t.mapM fun c => if c.val < 256 then some c.val.toUInt8 else none

end Text

end AddonExchange
