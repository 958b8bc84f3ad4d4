import AddonExchange.Bytes.Basic

/-! The escaped form of file contents in a textual container. A byte that the container
cannot hold is written as a marker followed by the byte plus one. -/

namespace AddonExchange.Escape

/-- The byte that announces an escaped byte. -/
def marker : UInt8 := 0x01

/-- Zero, the marker itself, the carriage return and the container's own metadata marker. -/
def escapedBytes : List UInt8 := [0x00, marker, 0x0D, 0xFE]

def needsEscaping (b : UInt8) : Bool := escapedBytes.contains b

def encodeByte (b : UInt8) : Bytes := if needsEscaping b then [marker, b + 1] else [b]

/-- A byte string with every byte in escaped form. -/
def escape (bytes : Bytes) : Bytes := bytes.flatMap encodeByte

/-- The escaped form of a byte string, which is kept if no byte of it has to be escaped. -/
def encode (bytes : Bytes) : Bytes :=
  if bytes.any needsEscaping then escape bytes else bytes

/-- Reads from left to right. Every byte after a marker counts as escaped, and a marker at the
very end stands for itself. -/
def unescape : Bytes → Bytes
  | [] => []
  | [b] => [b]
  | b :: next :: rest =>
    if b = marker then (next - 1) :: unescape rest else b :: unescape (next :: rest)

/-- Reads the escaped form, which is kept if there is no marker in it. -/
def decode (bytes : Bytes) : Bytes := if bytes.contains marker then unescape bytes else bytes

end AddonExchange.Escape
