import AddonExchange.Text.Utf8

/-! Which names an add-on and its files may have. A file name has to be usable on every
platform, so the rules are the union of those of all of them; they are stated on the bytes
that a name stands for. -/

namespace AddonExchange.Name

/-- The longest file name in bytes. -/
def maxBytes : Nat := 255

/-- Names that stand for devices on some platforms, whatever follows their first dot. -/
def deviceNames : List String :=
  ["AUX", "COM1", "COM2", "COM3", "COM4", "COM5", "COM6", "COM7", "COM8", "COM9", "CON", "CONIN$",
    "CONOUT$", "LPT1", "LPT2", "LPT3", "LPT4", "LPT5", "LPT6", "LPT7", "LPT8", "LPT9", "NUL", "PRN"]

def dot : UInt8 := 0x2E

/-- The part of a name before its first dot, in upper case. -/
def stem (raw : Bytes) : Bytes := (raw.takeWhile (· != dot)).map Bytes.upperByte

def isDevice (raw : Bytes) : Bool :=
  deviceNames.any fun name => Text.utf8 name.toList == stem raw

def hasDoubledDot : Bytes → Bool
  | first :: second :: rest =>
    (first == dot && second == dot) || hasDoubledDot (second :: rest)
  | _ => false

/-- Characters other than controls that no file name may hold. -/
def forbidden : List Char := " \"*/:<>?\\|~\x7F".toList

/-- Whether a character may not stand in a file name: one of those listed, or a control
character. -/
def isForbidden (c : Char) : Bool :=
  forbidden.contains c || c.toNat < 0x20 || (0x80 ≤ c.toNat && c.toNat < 0xA0)

/-- Whether bytes are a legal name of a file or directory. -/
def isLegalFileBytes (raw : Bytes) : Bool :=
  !raw.isEmpty && raw.getLast? != some dot && !hasDoubledDot raw && raw.length ≤ maxBytes &&
    !isDevice raw &&
    match Utf8.decode? raw with
    | none => false
    | some chars => chars.all fun c => !isForbidden c

/-- Whether text is a legal name of a file or directory. -/
def isLegalFile (name : Text) : Bool :=
  match name.rawBytes? with
  | none => false
  | some raw => isLegalFileBytes raw

/-- Whether a byte may stand in the name of an add-on: an ASCII letter or digit, the hyphen or
the underscore. -/
def isAddonByte (b : UInt8) : Bool :=
  (0x41 ≤ b && b ≤ 0x5A) || (0x61 ≤ b && b ≤ 0x7A) || (0x30 ≤ b && b ≤ 0x39) || b == 0x5F ||
    b == 0x2D

def isLegalAddonBytes (raw : Bytes) : Bool := !raw.isEmpty && raw.all isAddonByte

def isLegalAddon (name : Text) : Bool :=
  match name.rawBytes? with
  | none => false
  | some raw => isLegalAddonBytes raw

end AddonExchange.Name
