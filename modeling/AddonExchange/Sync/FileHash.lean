import AddonExchange.Bytes.Base64
import AddonExchange.Bytes.Md5
import AddonExchange.Tree.Basic

namespace AddonExchange

def hashAlgorithm : String := "md5"

/-- The hash of contents: their digest in Base64. -/
def contentHash (bytes : Bytes) : Text := Text.ofChars (Base64.encode (Md5.digest bytes))

namespace File

/-- The hash that a file carries, or that of its contents if it carries none or an empty one.
Absent contents hash like empty ones. -/
def hashOf (file : File) : Text :=
  match file.hash with
  | some (c :: rest) => c :: rest
  | _ => contentHash (file.contents.getD [])

/-- What identifies a file within its directory. -/
def key (file : File) : Text × Text := (file.name, file.hashOf)

/-- Files are the same if they have the same name and hash. -/
def sameAs (first second : File) : Bool := first.key == second.key

end File

def Dir.fileKeys (dir : Dir) : List (Text × Text) := dir.files.map File.key

end AddonExchange
